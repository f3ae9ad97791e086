import DescriptorRings.Proofs.Transmit.Flight

/-!
# The packets of a ring as one deque

A ring keeps the packets past the intake in two lists, those that the posting walk has passed and those
that it has not.  They can be kept in one deque as well, with an index that says how far the walk has
come: the walk moves the index on, completion takes packets from the front and moves it back, and
nothing ever divides the deque.  This is how a driver keeps them (`TxDeque`).

Two things are silently taken for granted then.  The index must not pass the end, or the number of
packets that the walk has not reached, a difference, would go below zero; and a packet behind the index
must not have descriptors.  With two lists neither can be said otherwise.  With a deque both are
invariants of its operations (`TxDeque.Step.sound`), and they are proved of the deque alone.

The two representations are one.  Each operation on the lists is the operation on the deque
(`TxRing.deque_collect` and its like), the posting walk among them, which is a recursion on the one side
and a loop over an index on the other (`TxRing.deque_post`).  So the deque runs along with every use of a
ring (`deque_runs_along`).
-/

namespace DescriptorRings

open List Relation

/-- An entry that the posting walk has not reached. -/
def TxEntry.unreached (p : Packet) : TxEntry := ⟨p, none⟩

/-- The packets past the intake, and the counters of the descriptors in flight. -/
structure TxDeque where
  /-- The packets, oldest first. -/
  entries : List TxEntry := []
  /-- How many of them the posting walk has passed. -/
  passed : Nat := 0
  /-- The next descriptor to write. -/
  producer : Counter := 0
  /-- The oldest descriptor not given back. -/
  reclaim : Counter := 0
  deriving DecidableEq, Repr

namespace TxDeque

/-! ## Operations -/

/-- Begins to run at the adapter's counter. -/
def begin (q : TxDeque) (c : Counter) : TxDeque := { q with producer := c, reclaim := c }

/-- Marks every packet ignored. -/
def cancel (q : TxDeque) : TxDeque := { q with entries := q.entries.map TxEntry.ignore }

/-- Adds packets at the end. -/
def extend (q : TxDeque) (ps : List Packet) : TxDeque :=
  { q with entries := q.entries ++ ps.map TxEntry.unreached }

/-- The walk passes a packet that is ignored. -/
def skip (q : TxDeque) : TxDeque := { q with passed := q.passed + 1 }

/-- The walk passes a packet that is posted, and enters where its last descriptor is. -/
def passPost (q : TxDeque) (t : TxPost) : TxDeque :=
  { q with
    entries := q.entries.modify q.passed fun e => { e with last := some t.last }
    passed := q.passed + 1
    producer := t.first.advance t.packet.fragmentCount }

/-- A posting walk under way. -/
structure Posting where
  /-- The deque. -/
  deque : TxDeque
  /-- The packets posted so far. -/
  posts : List TxPost := []
  /-- The packet that stopped the walk: the descriptors that it needed, and those that were free. -/
  stopped : Option (Nat × Nat) := none
  deriving DecidableEq, Repr

/-- The walk looks at the packet at the index. -/
def postNext (size : RingSize) (w : Posting) : Bool × Posting :=
  match w.deque.entries[w.deque.passed]? with
  | none => (false, w)
  | some e =>
    if e.packet.ignored then (true, { w with deque := w.deque.skip })
    else
      let needed := e.packet.fragmentCount
      let free := size.capacity - w.deque.producer.distance w.deque.reclaim size.slots
      if free < needed then (false, { w with stopped := some (needed, free) })
      else
        let t : TxPost := ⟨e.packet, w.deque.producer⟩
        (true, { w with deque := w.deque.passPost t, posts := w.posts ++ [t] })

/-- Posts packets from the index on, until one does not fit. -/
def post (size : RingSize) (q : TxDeque) : Posting :=
  loop (postNext size) q.entries.length { deque := q }

/-- The walk between the packets that it has passed and those that it has not. -/
def Posting.between (front : List TxEntry) (ps : List Packet) (producer reclaim : Counter)
    (posts : List TxPost) : Posting :=
  { deque := ⟨front ++ ps.map TxEntry.unreached, front.length, producer, reclaim⟩, posts := posts }

/-- Takes out the oldest packet if the walk has passed it and it is done. -/
def takeDone? (size : RingSize) (q : TxDeque) (unconsumed : Nat) : Option (Packet × TxDeque) :=
  if q.passed = 0 then none
  else
    match q.entries with
    | [] => none
    | ⟨p, none⟩ :: rest => some (p, { q with entries := rest, passed := q.passed - 1 })
    | ⟨p, some last⟩ :: rest =>
      if q.producer.distance last size.slots ≤ unconsumed then none
      else
        some (p, { q with entries := rest, passed := q.passed - 1, reclaim := last.advance 1 })

/-- Takes out all packets, and forgets the descriptors in flight. -/
def drain (q : TxDeque) : TxDeque :=
  { q with entries := [], passed := 0, reclaim := q.producer }

/-- How many packets the walk has not reached. -/
def unreachedCount (q : TxDeque) : Nat := q.entries.length - q.passed

/-- An operation. -/
inductive Step (size : RingSize) : TxDeque → TxDeque → Prop
  /-- The deque begins to run. -/
  | begin (q : TxDeque) (c : Counter) : Step size q (q.begin c)
  /-- All packets are marked. -/
  | cancel (q : TxDeque) : Step size q q.cancel
  /-- Packets are added. -/
  | extend (q : TxDeque) (ps : List Packet) : Step size q (q.extend ps)
  /-- Packets are posted. -/
  | post (q : TxDeque) : Step size q (q.post size).deque
  /-- A packet is taken out that is done. -/
  | takeDone {q q' : TxDeque} {p : Packet} (n : Nat) (h : q.takeDone? size n = some (p, q')) :
      Step size q q'
  /-- All packets are taken out. -/
  | drain (q : TxDeque) : Step size q q.drain

/-! ## One round of the walk -/

section

variable {size : RingSize} (front : List TxEntry) {p : Packet} (ps : List Packet)
  {producer reclaim : Counter} (posts : List TxPost)

theorem postNext_nil (size : RingSize) (producer reclaim : Counter) :
    postNext size (.between front [] producer reclaim posts) =
      (false, .between front [] producer reclaim posts) := by
  simp [postNext, Posting.between]

theorem postNext_ignored (size : RingSize) (producer reclaim : Counter) (ignored : p.ignored = true) :
    postNext size (.between front (p :: ps) producer reclaim posts) =
      (true, .between (front ++ [⟨p, none⟩]) ps producer reclaim posts) := by
  simp [postNext, Posting.between, TxEntry.unreached, ignored, skip]

theorem postNext_halted (ignored : ¬p.ignored = true)
    (full : size.capacity - producer.distance reclaim size.slots < p.fragmentCount) :
    postNext size (.between front (p :: ps) producer reclaim posts) =
      (false, { Posting.between front (p :: ps) producer reclaim posts with
        stopped := some (p.fragmentCount, size.capacity - producer.distance reclaim size.slots) }) := by
  simp [postNext, Posting.between, TxEntry.unreached, ignored, full]

theorem postNext_posted (ignored : ¬p.ignored = true)
    (fits : ¬size.capacity - producer.distance reclaim size.slots < p.fragmentCount) :
    postNext size (.between front (p :: ps) producer reclaim posts) =
      (true, .between (front ++ [⟨p, some (TxPost.mk p producer).last⟩]) ps
        (producer.advance p.fragmentCount) reclaim (posts ++ [⟨p, producer⟩])) := by
  have entered (f : TxEntry → TxEntry) (e : TxEntry) (es : List TxEntry) :
      (front ++ e :: es).modify front.length f = front ++ f e :: es := by
    rw [modify_eq_take_drop, take_left, drop_left]
    rfl
  simp [postNext, Posting.between, ignored, fits, passPost, entered, TxEntry.unreached]

end

/-! ## The index -/

/-- The index divides the deque. -/
structure Sound (q : TxDeque) : Prop where
  /-- It does not pass the end. -/
  reached : q.passed ≤ q.entries.length
  /-- Packets behind it have no descriptors. -/
  unreached : ∀ e ∈ q.entries.drop q.passed, e.last = none

variable {size : RingSize} {q q' : TxDeque}

namespace Sound

/-- The packet at the index is passed, and maybe something is entered there. -/
theorem pass (h : q.Sound) {e : TxEntry} (here : q.entries[q.passed]? = some e)
    (f : TxEntry → TxEntry) (c : Counter) :
    Sound { q with entries := q.entries.modify q.passed f, passed := q.passed + 1, producer := c } := by
  obtain ⟨inside, -⟩ := List.getElem?_eq_some_iff.mp here
  refine ⟨?_, fun e he => h.unreached e ?_⟩
  · rw [length_modify]
    exact inside
  · rw [drop_modify_of_lt _ _ _ _ (Nat.lt_succ_self _)] at he
    exact drop_subset_drop_left _ (Nat.le_succ _) he

theorem postNext {w : Posting} (h : w.deque.Sound) : (TxDeque.postNext size w).2.deque.Sound := by
  unfold TxDeque.postNext
  split
  · exact h
  · next e here =>
    split
    · have passed := h.pass here id w.deque.producer
      rwa [modify_id] at passed
    · dsimp only
      split
      · exact h
      · exact h.pass here _ _

end Sound

/-- **No operation moves the index past the end**, and none gives descriptors to a packet behind it. -/
theorem Step.sound (step : Step size q q') (h : q.Sound) : q'.Sound := by
  cases step with
  | begin => exact ⟨h.reached, h.unreached⟩
  | cancel =>
    refine ⟨h.reached.trans (length_map _).ge, fun e he => ?_⟩
    rw [TxDeque.cancel, ← map_drop] at he
    obtain ⟨e, inside, rfl⟩ := mem_map.mp he
    exact h.unreached e inside
  | extend ps =>
    refine ⟨h.reached.trans (by simp [TxDeque.extend]), fun e he => ?_⟩
    rw [TxDeque.extend, drop_append_of_le_length h.reached] at he
    rcases mem_append.mp he with inside | new
    · exact h.unreached e inside
    · obtain ⟨p, -, rfl⟩ := mem_map.mp new
      rfl
  | post =>
    exact loop_keeps (P := fun w : Posting => w.deque.Sound) (fun _ h => h.postNext) _ h
  | takeDone n taken =>
    obtain ⟨reached, unreached⟩ := h
    unfold takeDone? at taken
    split at taken
    · exact nomatch taken
    next some =>
      obtain ⟨k, index⟩ := Nat.exists_eq_succ_of_ne_zero some
      -- what is left of the deque has the same packets behind its index
      have rest {e : TxEntry} {rest : List TxEntry} (entries : q.entries = e :: rest) (c : Counter) :
          Sound { q with entries := rest, passed := q.passed - 1, reclaim := c } := by
        rw [entries, index] at reached unreached
        rw [index]
        exact ⟨Nat.le_of_succ_le_succ reached, unreached⟩
      split at taken
      · exact nomatch taken
      · next entries =>
        obtain ⟨-, rfl⟩ := Prod.mk.inj (Option.some.inj taken)
        exact rest entries q.reclaim
      · next last _ entries =>
        split at taken
        · exact nomatch taken
        · obtain ⟨-, rfl⟩ := Prod.mk.inj (Option.some.inj taken)
          exact rest entries (last.advance 1)
  | drain => exact ⟨Nat.le_refl 0, fun e he => absurd he not_mem_nil⟩

theorem sound_of_run (run : ReflTransGen (Step size) {} q) : q.Sound := by
  induction run with
  | refl => exact ⟨Nat.le_refl 0, fun e he => absurd he not_mem_nil⟩
  | tail _ step ih => exact step.sound ih

end TxDeque

/-! ## A ring and its deque -/

namespace TxRing

variable {r r' : TxRing} {p : Packet}

/-- The deque of a ring. -/
def deque (r : TxRing) : TxDeque := ⟨r.entries, r.passed.length, r.producer, r.reclaim⟩

theorem deque_begin (r : TxRing) (c : Counter) : (r.begin c).deque = r.deque.begin c := rfl

theorem deque_cancel (r : TxRing) : r.cancel.deque = r.deque.cancel := by
  simp [deque, TxDeque.cancel, entries, cancel, TxEntry.ignore, Function.comp_def]

theorem deque_collect (r : TxRing) : r.collect.deque = r.deque.extend r.intake.toList := by
  simp [deque, TxDeque.extend, entries, collect, TxEntry.unreached]

/-- **The walk over an index is the walk over the packets behind it.** -/
theorem loop_postNext (size : RingSize) (reclaim : Counter) {ps : List Packet} {rounds : Nat}
    (enough : ps.length ≤ rounds) (front : List TxEntry) (producer : Counter)
    (posts : List TxPost) :
    loop (TxDeque.postNext size) rounds (.between front ps producer reclaim posts) =
      let w := walk size reclaim ps producer
      { TxDeque.Posting.between (front ++ w.passed) w.waiting w.producer reclaim (posts ++ w.posts)
        with stopped := w.stopped } := by
  induction ps generalizing rounds front producer posts with
  | nil =>
    rw [loop_of_idle (TxDeque.postNext_nil ..)]
    simp [walk, Walk.done, TxDeque.Posting.between]
  | cons p ps ih =>
    obtain ⟨rounds, rfl⟩ := Nat.exists_eq_succ_of_ne_zero (Nat.ne_zero_of_lt enough)
    have enough : ps.length ≤ rounds := Nat.le_of_succ_le_succ enough
    rw [walk]
    by_cases ignored : p.ignored = true
    · have next := TxDeque.postNext_ignored front ps posts size producer reclaim ignored
      rw [loop_of_again (by rw [next]), next, ih enough, if_pos ignored]
      simp [Walk.skipping]
    · rw [if_neg ignored]
      dsimp only
      by_cases full : size.capacity - producer.distance reclaim size.slots < p.fragmentCount
      · have next := TxDeque.postNext_halted front ps posts ignored full
        rw [loop_of_stop (by rw [next]), next, if_pos full]
        simp [Walk.halted, Walk.done]
      · have next := TxDeque.postNext_posted front ps posts ignored full
        rw [loop_of_again (by rw [next]), next, ih enough, if_neg full]
        simp [Walk.posting]

/-- **The walk of a ring is the walk of its deque.** -/
theorem deque_post (r : TxRing) : r.deque.post r.size =
    ⟨(r.afterWalk r.postingWalk).deque, r.postingWalk.posts, r.postingWalk.stopped⟩ := by
  have enough : r.waiting.length ≤ r.entries.length := by simp [entries]
  refine (loop_postNext r.size r.reclaim enough r.passed r.producer []).trans ?_
  simp [TxDeque.Posting.between, deque, entries, afterWalk, postingWalk, TxEntry.unreached]

theorem deque_takeDone? (r : TxRing) (n : Nat) :
    r.deque.takeDone? r.size n = (r.takeDone? n).map fun x => (x.1, x.2.deque) := by
  unfold TxDeque.takeDone? takeDone? deque entries
  cases passed : r.passed with
  | nil => rfl
  | cons e rest =>
    obtain ⟨p, last⟩ := e
    cases last with
    | none => rfl
    | some last =>
      dsimp only [cons_append]
      rw [length_cons, if_neg (Nat.succ_ne_zero rest.length)]
      split <;> rfl

theorem deque_abandon {r : TxRing} (empty : r.queue = []) : r.abandon.deque = r.deque.drain := by
  obtain ⟨passed, waiting⟩ := append_eq_nil_iff.mp empty
  have passed : r.passed = [] := map_eq_nil_iff.mp passed
  simp [deque, entries, abandon, TxDeque.drain, passed, waiting]

/-- **What is pending is a difference**, and one that does not go below zero. -/
theorem pending_eq_unreachedCount (r : TxRing) :
    r.pending = r.deque.unreachedCount + r.intake.size := by
  have behind : r.deque.unreachedCount = r.waiting.length := by
    simp [TxDeque.unreachedCount, deque, entries]
  rw [behind, pending]

end TxRing

/-! ## The deque of a ring that is used -/

/-- The deque of a ring has been reached by its operations.  While the ring is being emptied, packet by
packet, it is the deque of before that has been reached. -/
def TxTrails (size : RingSize) (c : TxPoint × Machine) : Prop :=
  ∃ r q, c.2.tx = some r ∧ r.size = size ∧ ReflTransGen (TxDeque.Step size) {} q ∧
    q.producer = r.producer ∧ (c.1 ≠ .draining → r.deque = q)

namespace TxTrails

variable {permits : Move → Prop} {size : RingSize} {x x' : TxPoint} {m m' : Machine} {r r' : TxRing}

/-- A step that is none of the deque's. -/
theorem stay (h : TxTrails size (x, m)) (tx : m.tx = some r) (tx' : m'.tx = some r')
    (hs : r'.size = r.size) (deque : r'.deque = r.deque) (point : x' ≠ .draining → x ≠ .draining) :
    TxTrails size (x', m') := by
  obtain ⟨r, q, here, size, run, producer, same⟩ := h
  obtain rfl := Option.some.inj (here.symm.trans tx)
  have kept : r'.producer = r.producer := congrArg TxDeque.producer deque
  exact ⟨r', q, tx', hs.trans size, run, producer.trans kept.symm,
    fun awake => deque.trans (same (point awake))⟩

theorem stay_of_tx_eq (h : TxTrails size (x, m)) (tx : m'.tx = m.tx)
    (point : x' ≠ .draining → x ≠ .draining) : TxTrails size (x', m') := by
  obtain ⟨r, q, here, -⟩ := id h
  exact h.stay here (tx.trans here) rfl rfl point

/-- A step that is an operation of the deque. -/
theorem go (h : TxTrails size (x, m)) (awake : x ≠ .draining) (tx : m.tx = some r)
    (tx' : m'.tx = some r') (hs : r'.size = r.size)
    (step : r.size = size → TxDeque.Step size r.deque r'.deque) : TxTrails size (x', m') := by
  obtain ⟨r, q, here, size, run, -, same⟩ := h
  obtain rfl := Option.some.inj (here.symm.trans tx)
  obtain rfl := same awake
  exact ⟨r', r'.deque, tx', hs.trans size, run.tail (step size), rfl, fun _ => rfl⟩

/-- **Every step of a ring is an operation of its deque, or none.** -/
theorem step (c c' : TxPoint × Machine) (step : TxStep permits c c') (surveyed : Surveyed c)
    (h : TxTrails size c) : TxTrails size c' := by
  have awake {x : TxPoint} (other : x ≠ .draining) (x' : TxPoint) (_ : x' ≠ .draining) :
      x ≠ .draining := other
  cases step
  case plan => exact h.stay_of_tx_eq rfl id
  case move => exact h.stay_of_tx_eq (Machine.tx_move _ _) id
  case elsewhere apart => exact h.stay_of_tx_eq apart.tx id
  case note => exact h.stay_of_tx_eq (Machine.tx_record _ _) id
  case accept tx _ => exact h.stay tx (Machine.tx_record _ _) rfl rfl id
  case look | align | switchOn | switchOff | announce | ring | read | write =>
    exact h.stay_of_tx_eq (Machine.tx_record _ _) (awake TxPoint.noConfusion _)
  case survey | written | quiet | stop =>
    exact h.stay_of_tx_eq rfl (awake TxPoint.noConfusion _)
  case place c r tx =>
    exact h.go TxPoint.noConfusion tx rfl rfl fun _ => r.deque_begin c ▸ .begin r.deque c
  case mark r tx =>
    exact h.go TxPoint.noConfusion tx rfl rfl fun _ => r.deque_cancel ▸ .cancel r.deque
  case collect r tx =>
    exact h.go TxPoint.noConfusion tx rfl rfl fun _ => r.deque_collect ▸ .extend r.deque _
  case adopt m w done r tx =>
    obtain rfl := surveyed w r rfl tx
    refine h.go TxPoint.noConfusion tx rfl rfl fun hs => ?_
    have posted : TxDeque.Step r.size r.deque _ := .post r.deque
    rw [r.deque_post] at posted
    exact hs ▸ posted
  case doubt c r tx =>
    obtain ⟨n, hn⟩ := TxRing.exists_noteReading_eq r c
    exact h.stay tx rfl (by rw [hn]) (by rw [hn]; rfl) id
  case complete n p r r' tx next =>
    have hs : r'.size = r.size := by
      rcases TxRing.takeDone?_eq_some_iff.mp next with ⟨rest, -, rfl⟩ | ⟨last, rest, -, -, rfl⟩ <;> rfl
    refine h.go TxPoint.noConfusion tx (Machine.tx_record _ _) hs fun size => ?_
    have taken := r.deque_takeDone? n
    rw [next, size] at taken
    exact .takeDone n taken
  case drain tx _ =>
    exact h.stay_of_tx_eq rfl (awake TxPoint.noConfusion _)
  case surrender p r r' tx next =>
    obtain ⟨r₀, q, here, size, run, producer, -⟩ := h
    obtain rfl := Option.some.inj (here.symm.trans tx)
    refine ⟨r'.settle p.ignore, q, Machine.tx_record _ _, ?_, run, ?_, fun awake => absurd rfl awake⟩ <;>
      rcases TxRing.takeOldest?_eq_some_iff.mp next with ⟨e, rest, -, -, rfl⟩ | ⟨rest, -, -, rfl⟩ <;>
        assumption
  case abandon r tx empty =>
    obtain ⟨r₀, q, here, size, run, producer, -⟩ := h
    obtain rfl := Option.some.inj (here.symm.trans tx)
    refine ⟨r₀.abandon, q.drain, rfl, size, run.tail (.drain q), producer, fun _ => ?_⟩
    have drained : r₀.deque.drain = q.drain := by
      show TxDeque.mk [] 0 r₀.producer r₀.producer = .mk [] 0 q.producer q.producer
      rw [producer]
    exact (TxRing.deque_abandon empty).trans drained

end TxTrails

/-- **The deque runs along.**  However a new ring is used, the deque of the ring is what the operations of
a deque make of an empty one.  So its index divides it, and the number of packets that are pending is a
difference that does not go below zero. -/
theorem deque_runs_along {slots depth : Nat} {permits : Move → Prop} {m₀ m : Machine}
    (new : m₀.NewTx slots depth) (planned : Machine.Permitted permits m₀.agenda)
    (run : ReflTransGen (TxRequest permits) m₀ m) :
    ∃ r, m.tx = some r ∧ r.size.slots = slots ∧ ReflTransGen (TxDeque.Step r.size) {} r.deque ∧
      r.deque.Sound ∧ r.pending = r.deque.unreachedCount + r.intake.size := by
  obtain ⟨r₀, made, tx₀⟩ := new.made
  obtain ⟨size, slots, rfl⟩ := TxRing.create_eq_ok made
  obtain ⟨size', slots', ready, surveyed, -⟩ := new.begins planned
  have start : Surveyed (.idle, m₀) ∧ TxTrails size (.idle, m₀) :=
    ⟨surveyed, _, _, tx₀, rfl, .refl, rfl, fun _ => rfl⟩
  obtain ⟨-, r, q, tx, rfl, reached, -, same⟩ :=
    Machine.inv_of_steps (fun c => Surveyed c ∧ TxTrails size c)
      (fun c c' step h => ⟨step.surveyed c c' h.1, TxTrails.step c c' step h.1 h.2⟩)
      (steps_of_requests run ready) start
  obtain rfl := same TxPoint.noConfusion
  exact ⟨r, tx, slots, reached, TxDeque.sound_of_run reached, r.pending_eq_unreachedCount⟩

end DescriptorRings
