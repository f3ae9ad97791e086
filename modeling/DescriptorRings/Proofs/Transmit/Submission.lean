import DescriptorRings.Proofs.Machine.Strokes
import DescriptorRings.Proofs.Transmit.Simulation

/-!
# Which packets are taken in

The upper layer knows that a packet was taken in because its submission was answered so.  The journal
knows it because an event was entered.  This file shows that the two agree, call by call.

A single submission is the simple part (`Machine.submission`): the answer says what has become of the
ring and of the journal, and a packet that is refused has changed nothing at all.

But submissions are made in callbacks too, in the middle of a service, and there the machine that a
packet is submitted to is one that only the service itself gets to see.  So a run is written down with
the packets whose submission was answered well (`TxRun`): between two requests, and inside a service
in each callback where it is made (`Serving`).  The service's own work takes no packet in
(`Machine.Gains.of_working`); what is answered is therefore what the journal has
(`TxRun.gains`).

No run is left out: whatever is requested of a ring can be written down in this way
(`exists_txRun`).
-/

namespace DescriptorRings

open Relation List

variable {permits : Move → Prop} {m m' m'' m₀ : Machine} {r : TxRing} {p : Packet} {u : Upper}
  {s : Served} {ps qs told : List Packet}

/-! ## One submission -/

/-- What a submission to a ring comes to. -/
structure Machine.Submission (m : Machine) (r : TxRing) (p : Packet) : Prop where
  /-- A packet is taken in if it can be posted at all and there is room for it. -/
  accepted_iff : (m.submit p).1 = .ok () ↔
    0 < p.fragmentCount ∧ p.fragmentCount ≤ r.capacity ∧ r.outstanding < r.depth
  /-- **The answer is well exactly if the ring has taken the packet in**, and that is all that has
  been entered. -/
  taken_iff : (m.submit p).1 = .ok () ↔
    (m.submit p).2.tx = some (r.accept p) ∧
      (m.submit p).2.journal.events.toList = m.journal.events.toList ++ [.accepted p]
  /-- A packet that is refused changes nothing. -/
  refused : ∀ cause, (m.submit p).1 = .error cause → (m.submit p).2 = m

theorem Machine.submission (tx : m.tx = some r) (complete : m.journal.detail = .complete)
    (p : Packet) : m.Submission r p := by
  cases free : r.refusal? p with
  | some cause =>
    have refused : m.submit p = (.error cause, m) := by rw [submit, tx, Option.bind_some, free]
    have answer : (m.submit p).1 ≠ .ok () := by simp [refused]
    refine ⟨iff_of_false answer fun fits => ?_, iff_of_false answer fun taken => ?_, fun _ _ => ?_⟩
    · exact Option.some_ne_none cause (free.symm.trans (TxRing.refusal?_eq_none_iff.mpr fits))
    · rw [refused] at taken
      exact cons_ne_nil _ _ (append_right_eq_self.mp taken.2.symm)
    · rw [refused]
  | none =>
    have taken : m.submit p = (.ok (), (m.setTx (r.accept p)).record (.accepted p)) := by
      rw [submit, tx, Option.bind_some, free]
      dsimp only
      rw [modifyTx_eq_setTx tx]
    have answer : (m.submit p).1 = .ok () := by rw [taken]
    refine ⟨iff_of_true answer (TxRing.refusal?_eq_none_iff.mp free), iff_of_true answer ⟨?_, ?_⟩,
      fun cause refused => ?_⟩
    · rw [taken]
      exact tx_record _ _
    · rw [taken, journal_record]
      exact Journal.toList_events_add complete _
    · simp [answer] at refused

/-- The packet that is submitted, if the answer is that it was taken in. -/
def Machine.taken (m : Machine) (p : Packet) : List Packet :=
  match (m.submit p).1 with
  | .ok () => [p]
  | .error _ => []

/-! ## What the journal gains -/

/-- Between two machines just these packets were taken in, as the journal has it. -/
structure Machine.Gains (ps : List Packet) (m m' : Machine) : Prop where
  /-- The level of detail stays. -/
  detail : m'.journal.detail = m.journal.detail
  /-- The packets are those taken in since. -/
  accepted : m.journal.detail = .complete → m'.journal.accepted = m.journal.accepted ++ ps

namespace Machine.Gains

theorem refl (m : Machine) : Gains [] m m := ⟨rfl, fun _ => (append_nil _).symm⟩

theorem trans (h : Gains ps m m') (h' : Gains qs m' m'') : Gains (ps ++ qs) m m'' :=
  ⟨h'.detail.trans h.detail, fun complete => by
    rw [h'.accepted (h.detail.trans complete), h.accepted complete, append_assoc]⟩

/-- Afterwards no more packets were taken in. -/
theorem idle (h : Gains ps m m') (own : Gains [] m' m'') : Gains ps m m'' :=
  append_nil ps ▸ h.trans own

/-- Whatever else is entered, no packet is taken in by it. -/
theorem of_enters {P : Event → Prop} (h : m.Enters P m') (none : ∀ e, P e → e.accepted? = none) :
    Gains [] m m' :=
  ⟨h.detail, fun complete => (h.pick_eq complete none).trans (append_nil _).symm⟩

/-- **The ring's own work takes no packet in.** -/
theorem of_working {shifts : Prop} (run : Working .tx shifts (fun _ _ => False) m m') :
    Gains [] m m' := by
  have own (e : Event) (h : Part.tx.enters e = true) : e.accepted? = none := by
    cases e <;> first | rfl | exact absurd h Bool.false_ne_true
  exact run.keeps (P := Gains [] m) (fun _ _ stroke h => h.idle (of_enters stroke.entered own))
    (fun _ _ none _ => none.elim) (refl m)

/-- **A submission takes in what it answers that it has taken in.** -/
theorem submit (m : Machine) (p : Packet) : Gains (m.taken p) m (m.submit p).2 := by
  cases free : m.tx.bind fun r => r.refusal? p with
  | some cause =>
    have refused : m.submit p = (.error cause, m) := by rw [Machine.submit, free]
    rw [taken, refused]
    exact refl m
  | none =>
    have accepted : m.submit p =
        (.ok (), (m.modifyTx fun r => r.accept p).record (.accepted p)) := by
      rw [Machine.submit, free]
    rw [taken, accepted]
    refine ⟨?_, fun complete => ?_⟩
    · exact (congrArg Journal.detail (journal_record _ _)).trans (Journal.detail_add _ _)
    · rw [Journal.accepted, journal_record]
      exact Journal.pick_add complete _ _

end Machine.Gains

/-! ## Callbacks -/

/-- What the upper layer does in a callback, or between two requests.  The list has the packets whose
submission was answered well, in order. -/
inductive Submits (permits : Move → Prop) (m : Machine) : List Packet → Machine → Prop
  /-- Nothing is done. -/
  | nothing : Submits permits m [] m
  /-- A packet is submitted. -/
  | submit {ps : List Packet} {k : Machine} (before : Submits permits m ps k) (p : Packet) :
      Submits permits m (ps ++ k.taken p) (k.submit p).2
  /-- What a request came to is entered. -/
  | reply {ps : List Packet} {k : Machine} (before : Submits permits m ps k) (o : Outcome) :
      Submits permits m ps (k.record (.replied o))
  /-- The adapter makes a move. -/
  | move {ps : List Packet} {k : Machine} {mv : Move} (before : Submits permits m ps k)
      (h : permits mv) : Submits permits m ps (k.move mv)

theorem Submits.gains (h : Submits permits m ps m') : m.Gains ps m' := by
  have keeps {ps : List Packet} {k k' : Machine} {e : Event} (before : m.Gains ps k)
      (journal : k'.journal = k.journal.add e) (other : e.accepted? = none) : m.Gains ps k' :=
    before.idle (.of_enters (.of_journal_add (P := (· = e)) journal rfl) fun _ same => same ▸ other)
  induction h with
  | nothing => exact .refl m
  | submit _ p ih => exact ih.trans (.submit _ p)
  | reply _ o ih => exact keeps ih (Machine.journal_record _ _) rfl
  | move _ _ ih => exact keeps ih (Machine.journal_move _ _) rfl

theorem exists_submits (run : ReflTransGen (Sending permits) m m') : ∃ ps, Submits permits m ps m' := by
  induction run with
  | refl => exact ⟨[], .nothing⟩
  | tail _ act ih =>
    obtain ⟨ps, before⟩ := ih
    cases act with
    | submit p => exact ⟨_, before.submit p⟩
    | reply o => exact ⟨_, before.reply o⟩
    | move h => exact ⟨_, before.move h⟩

/-! ## Handing packets back -/

/-- The oldest packet past the intake, marked ignored. -/
def TxRing.takeIgnored? (r : TxRing) : Option (Packet × TxRing) :=
  r.takeOldest?.map fun x => (x.1.ignore, x.2)

/-- Packets are taken out of the ring and handed back, in so many rounds at most, and in each callback
there may be submissions. -/
inductive Handing (permits : Move → Prop) (take : TxRing → Option (Packet × TxRing)) :
    Nat → List Packet → Served → Prop
  /-- There are no rounds left. -/
  | spent (s : Served) : Handing permits take 0 [] s
  /-- There is no packet to hand back. -/
  | none {n : Nat} {s : Served} (none : s.machine.tx.bind take = none) :
      Handing permits take (n + 1) [] s
  /-- A packet is handed back, and then the others. -/
  | back {n : Nat} {s : Served} {p : Packet} {r : TxRing} {ps later : List Packet}
      (next : s.machine.tx.bind take = some (p, r))
      (called : Submits permits (s.settled r p).machine ps (s.settled r p).reply.machine)
      (rest : Handing permits take n later (s.settled r p).reply) :
      Handing permits take (n + 1) (ps ++ later) s

/-- One round: a packet is taken out, if there is one, counted and handed back. -/
def Machine.handBack (take : TxRing → Option (Packet × TxRing)) (s : Served) : Bool × Served :=
  match s.machine.tx.bind take with
  | some (p, r) => (true, (s.settled r p).reply)
  | none => (false, s)

/-- What a round does with the machine, apart from the callback, is the ring's own work. -/
theorem Machine.gains_settled (s : Served) (r : TxRing) (p : Packet) :
    s.machine.Gains [] (s.settled r p).machine :=
  .of_enters (.of_journal_add (P := (· = .completed p)) (journal_record _ _) rfl)
    fun _ same => same ▸ rfl

/-- **The rounds take in what is submitted in their callbacks.** -/
theorem Handing.gains {take : TxRing → Option (Packet × TxRing)} {n : Nat}
    (h : Handing permits take n ps s) :
    s.machine.Gains ps (loop (Machine.handBack take) n s).machine := by
  induction h with
  | spent s => exact .refl s.machine
  | @none n s none =>
    have idle : Machine.handBack take s = (false, s) := by rw [Machine.handBack, none]
    rw [loop_of_idle idle]
    exact .refl s.machine
  | @back n s p r ps later next called _ ih =>
    have again : Machine.handBack take s = (true, (s.settled r p).reply) := by
      rw [Machine.handBack, next]
    rw [loop_of_again (by rw [again]), again]
    exact ((Machine.gains_settled s r p).trans called.gains).trans ih

theorem exists_handing (take : TxRing → Option (Packet × TxRing)) (n : Nat)
    (abides : s.upper.Abides (Sending permits)) : ∃ ps, Handing permits take n ps s := by
  induction n generalizing s with
  | zero => exact ⟨[], .spent s⟩
  | succ n ih =>
    cases next : s.machine.tx.bind take with
    | none => exact ⟨[], .none next⟩
    | some taken =>
      obtain ⟨p, r⟩ := taken
      have abides : (s.settled r p).upper.Abides (Sending permits) := abides
      obtain ⟨ps, called⟩ := exists_submits (Served.run_reply abides)
      obtain ⟨later, rest⟩ := ih (Served.abides_reply abides)
      exact ⟨ps ++ later, .back next called rest⟩

theorem Machine.completeDone_eq (n : Nat) :
    completeDone n = handBack fun r => r.takeDone? n := by
  funext s
  unfold completeDone handBack
  rcases s.machine.tx.bind fun r => r.takeDone? n with _ | ⟨p, r⟩ <;> rfl

theorem Machine.completeOldest_eq : completeOldest = handBack TxRing.takeIgnored? := by
  funext s
  have marked : s.machine.tx.bind TxRing.takeIgnored? =
      (s.machine.tx.bind TxRing.takeOldest?).map fun x => (x.1.ignore, x.2) :=
    (Option.map_bind ..).symm
  unfold completeOldest handBack
  rw [marked]
  rcases s.machine.tx.bind TxRing.takeOldest? with _ | ⟨p, r⟩ <;> rfl

/-! ## Services -/

/-- The packets that are submitted in the callbacks of a service, if the answer is that they were taken
in. -/
inductive Serving (permits : Move → Prop) (m : Machine) (u : Upper) : List Packet → Prop
  /-- A ring that is stopped is not served. -/
  | idle (h : ∀ r, m.tx = some r → r.phase = .stopped) : Serving permits m u []
  /-- A cancelled ring hands everything back. -/
  | cancelled {r : TxRing} {ps : List Packet} (tx : m.tx = some r) (phase : r.phase = .cancelled)
      (handing : Handing permits TxRing.takeIgnored? r.collect.queue.length ps
        (.start u (m.modifyTx TxRing.collect))) : Serving permits m u ps
  /-- A running ring posts, reads how far the adapter has come, and hands back what is done. -/
  | running {r : TxRing} {c : Counter} {k : Machine} {ps : List Packet} (tx : m.tx = some r)
      (phase : r.phase = .running)
      (read : (m.modifyTx TxRing.collect).postTx.readCounter .txConsumer = (c, k))
      (handing : Handing permits (fun r => r.takeDone? ((k.tx.map fun r => r.unconsumed c).getD 0))
        ((k.tx.map fun r => r.passed.length).getD 0) ps (.start u (k.checkTxReading c))) :
      Serving permits m u ps

/-- Emptying the ring takes in what is submitted in the callbacks. -/
theorem Handing.gains_drainTx {n : Nat}
    (queued : (s.machine.tx.map fun r => r.queue.length).getD 0 = n)
    (h : Handing permits TxRing.takeIgnored? n ps s) : s.machine.Gains ps (Machine.drainTx s).machine := by
  have handed := h.gains
  rw [← Machine.completeOldest_eq, ← queued] at handed
  exact handed.idle (.of_enters (.modifyTx (fun _ => False) _ _) fun _ none => none.elim)

/-- So does handing back what the adapter has done with. -/
theorem Handing.gains_reclaimTx {c : Counter} {k : Machine}
    (read : s.machine.readCounter .txConsumer = (c, k))
    (h : Handing permits (fun r => r.takeDone? ((k.tx.map fun r => r.unconsumed c).getD 0))
      ((k.tx.map fun r => r.passed.length).getD 0) ps { s with machine := k.checkTxReading c }) :
    s.machine.Gains ps (Machine.reclaimTx s).machine := by
  have looked : s.machine.Gains [] (k.checkTxReading c) := by
    have own : Working .tx False (fun _ _ => False) s.machine _ := .readCounter s.machine .txConsumer
    rw [read] at own
    exact .of_working (own.trans (Machine.working_checkTxReading k c))
  have handed := h.gains
  rw [← Machine.completeDone_eq] at handed
  unfold Machine.reclaimTx
  rw [read]
  exact (looked.trans handed).idle
    (.of_enters (.giveIf (P := fun e => e.accepted? = .none) (fun _ => rfl) _ _ _) fun _ other => other)

/-- **A service takes in what is submitted in its callbacks.** -/
theorem Serving.gains (h : Serving permits m u ps) : m.Gains ps (m.advanceTx u).machine := by
  have collected : m.Gains [] (m.modifyTx TxRing.collect) := .of_enters (.modifyTx (fun _ => False) m _)
    fun _ none => none.elim
  cases h with
  | idle h =>
    unfold Machine.advanceTx
    split
    · exact .refl m
    · next r tx =>
      rw [h r tx]
      exact .refl m
  | @cancelled r ps tx phase handing =>
    have queued : ((m.modifyTx TxRing.collect).tx.map fun r => r.queue.length).getD 0 =
        r.collect.queue.length := by rw [Machine.tx_modifyTx tx]; rfl
    have served : m.advanceTx u = Machine.drainTx (.start u (m.modifyTx TxRing.collect)) := by
      unfold Machine.advanceTx
      rw [tx]
      dsimp only
      rw [phase]
    rw [served]
    exact collected.trans (handing.gains_drainTx queued)
  | running tx phase read handing =>
    have posting : Working .tx False (fun _ _ => False) (m.modifyTx TxRing.collect) _ :=
      Machine.working_postTx _
    rw [Machine.advanceTx_of_running tx phase]
    exact (collected.trans (.of_working posting)).trans
      (Handing.gains_reclaimTx (s := .start u _) read handing)

theorem exists_serving (m : Machine) (abides : u.Abides (Sending permits)) :
    ∃ ps, Serving permits m u ps := by
  cases tx : m.tx with
  | none => exact ⟨[], .idle fun r here => nomatch tx.symm.trans here⟩
  | some r =>
    cases phase : r.phase with
    | stopped =>
      refine ⟨[], .idle fun r' here => ?_⟩
      obtain rfl := Option.some.inj (tx.symm.trans here)
      exact phase
    | cancelled =>
      obtain ⟨ps, handing⟩ := exists_handing (s := .start u (m.modifyTx TxRing.collect))
        TxRing.takeIgnored? r.collect.queue.length abides
      exact ⟨ps, .cancelled tx phase handing⟩
    | running =>
      obtain ⟨ps, handing⟩ := exists_handing (s := .start u
        (Machine.checkTxReading _ _)) _ _ abides
      exact ⟨ps, .running tx phase rfl handing⟩

/-! ## Runs -/

/-- A run of requests, with the packets whose submission was answered well, in order. -/
inductive TxRun (permits : Move → Prop) (m₀ : Machine) : List Packet → Machine → Prop
  /-- Nothing was requested yet. -/
  | new : TxRun permits m₀ [] m₀
  /-- The ring is started, or that is refused. -/
  | start {told : List Packet} {m : Machine} (before : TxRun permits m₀ told m) :
      TxRun permits m₀ told m.startTx.2
  /-- The ring is cancelled. -/
  | cancel {told : List Packet} {m : Machine} (before : TxRun permits m₀ told m) :
      TxRun permits m₀ told m.cancelTx
  /-- The ring is served, and in the callbacks packets may be submitted. -/
  | advance {told ps : List Packet} {m : Machine} {u : Upper} (before : TxRun permits m₀ told m)
      (abides : u.Abides (Sending permits)) (serving : Serving permits m u ps) :
      TxRun permits m₀ (told ++ ps) (m.advanceTx u).machine
  /-- Packets are submitted, and whatever else may happen in a callback. -/
  | sending {told ps : List Packet} {m m' : Machine} (before : TxRun permits m₀ told m)
      (submits : Submits permits m ps m') : TxRun permits m₀ (told ++ ps) m'
  /-- The adapter changes its plans. -/
  | plan {told : List Packet} {m : Machine} (before : TxRun permits m₀ told m)
      {agenda : List (List Move)} (h : Machine.Permitted permits agenda) :
      TxRun permits m₀ told { m with agenda := agenda }

/-- **Just those packets were taken in whose submission was answered so**, and in that order. -/
theorem TxRun.gains (run : TxRun permits m₀ told m) : m₀.Gains told m := by
  induction run with
  | new => exact .refl m₀
  | start _ ih => exact ih.idle (.of_working (Machine.working_startTx _))
  | cancel _ ih => exact ih.idle (.of_working (Machine.working_cancelTx _))
  | advance _ _ serving ih => exact ih.trans serving.gains
  | sending _ submits ih => exact ih.trans submits.gains
  | plan _ _ ih => exact ⟨ih.detail, ih.accepted⟩

theorem Submits.run (h : Submits permits m ps m') : ReflTransGen (Sending permits) m m' := by
  induction h with
  | nothing => exact .refl
  | submit _ p ih => exact ih.tail (.submit _ p)
  | reply _ o ih => exact ih.tail (.reply _ o)
  | move _ h ih => exact ih.tail (.move _ h)

/-- What is written down is a run of requests. -/
theorem TxRun.requests (run : TxRun permits m₀ told m) : ReflTransGen (TxRequest permits) m₀ m := by
  induction run with
  | new => exact .refl
  | start _ ih => exact ih.tail (.start _)
  | cancel _ ih => exact ih.tail (.cancel _)
  | advance _ abides _ ih => exact ih.tail (.advance _ abides)
  | sending _ submits ih => exact ih.trans (submits.run.lift id fun _ _ => .sending)
  | plan _ h ih => exact ih.tail (.plan _ h)

/-- **Every run of requests can be written down.** -/
theorem exists_txRun (run : ReflTransGen (TxRequest permits) m₀ m) :
    ∃ told, TxRun permits m₀ told m := by
  induction run with
  | refl => exact ⟨[], .new⟩
  | tail _ request ih =>
    obtain ⟨told, before⟩ := ih
    cases request with
    | start => exact ⟨told, before.start⟩
    | cancel => exact ⟨told, before.cancel⟩
    | advance abides =>
      obtain ⟨ps, serving⟩ := exists_serving _ abides
      exact ⟨told ++ ps, before.advance abides serving⟩
    | sending act =>
      obtain ⟨ps, submits⟩ := exists_submits (.single act)
      exact ⟨told ++ ps, before.sending submits⟩
    | plan h => exact ⟨told, before.plan h⟩

end DescriptorRings
