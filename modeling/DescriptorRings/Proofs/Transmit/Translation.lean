import DescriptorRings.Proofs.Machine.Strokes
import DescriptorRings.Proofs.Transmit.Emission
import DescriptorRings.Proofs.Transmit.Shift

/-!
# Where the counters wrap does not matter

Two transmit rings of one size and depth are used in the same way, each over an adapter of its own.
The adapters do what they like, but for one thing: whenever the one is found at a counter, the other
is found `d` further on.  Then nobody who uses the rings can tell them apart, and what they do to
their adapters differs by `d` alone (`runs_translate`).  Since `d` is arbitrary, no behaviour depends
on where the counters wrap.

## What a use is

A use is a list of tasks (`TxTask`).  In its callbacks the upper layer submits packets, and it may go
by everything that it can see: what its submissions came to, the packets handed back so far, and the
figures of the ring, its counters apart (`TxSight`).  So a callback is not a list of submissions but
a strategy (`TxReply`).

## How the proof goes

The two machines are led through the use side by side.  Before the first start both rings stand at
the same place, and from then on `d` apart, because a start takes both counters from the reading; so
the distance `e` between the two rings is a parameter of the relation `Abreast`, while what they have
done is always compared at the distance `d`.  That fits together because a ring that was never
started neither writes nor has passed anything (`TxRing.Unmoved`).

That the readings agree is known of the journals at the end.  A journal only grows, so at each
reading it says what that reading was (`Abreast.reading`).
-/

namespace DescriptorRings

open Relation List TxRing

variable {permits : Move → Prop}

/-! ## What the upper layer sees -/

/-- What can be seen of a transmit ring from above: everything but its counters. -/
structure TxSight where
  /-- Descriptors in flight. -/
  inFlight : Nat
  /-- Descriptors that can be posted. -/
  freeSlots : Nat
  /-- Packets not reached by the posting walk. -/
  pending : Nat
  /-- Packets not completed. -/
  outstanding : Nat
  /-- What serving the ring means. -/
  phase : Phase
  /-- What was counted. -/
  stats : TxStats
  deriving DecidableEq, Repr

/-- What can be seen of a ring. -/
def TxRing.sight (r : TxRing) : TxSight where
  inFlight := r.inFlight
  freeSlots := r.freeSlots
  pending := r.pending
  outstanding := r.outstanding
  phase := r.phase
  stats := r.stats

@[simp] theorem TxRing.sight_shift (e : Counter) (r : TxRing) : (r.shift e).sight = r.sight := by
  unfold sight
  rw [inFlight_shift, freeSlots_shift]
  rfl

/-! ## Uses of a ring -/

/-- What the upper layer does in a callback, going by what it has seen. -/
inductive TxReply where
  /-- Nothing more. -/
  | done
  /-- It submits a packet, and goes on according to what that came to. -/
  | submit (p : Packet) (next : Except Refusal Unit → TxReply)
  /-- It looks at the ring and at the packets handed back so far, and goes on accordingly. -/
  | look (next : Option TxSight → List Packet → TxReply)

/-- Carries a reply out.  What the submissions come to is entered in the journal. -/
def TxReply.run : TxReply → Machine → Machine
  | .done, m => m
  | .submit p next, m =>
    let (result, m) := m.submit p
    (next result).run (m.record (.replied (.ofResult result)))
  | .look next, m => (next (m.tx.map TxRing.sight) m.journal.completed).run m

/-- One thing to be done with a transmit ring. -/
inductive TxTask where
  /-- Start it. -/
  | start
  /-- Cancel it. -/
  | cancel
  /-- Submit a packet. -/
  | submit (p : Packet)
  /-- Serve it, with a reply for each callback. -/
  | advance (replies : List TxReply)

/-- The upper layer that gives these replies. -/
def Upper.replying (replies : List TxReply) : Upper := { replies := replies.map TxReply.run }

namespace TxTask

/-- Carries a task out. -/
def run : TxTask → Machine → Outcome × Machine
  | .start, m => (.ofResult m.startTx.1, m.startTx.2)
  | .cancel, m => (.done, m.cancelTx)
  | .submit p, m => (.ofResult (m.submit p).1, (m.submit p).2)
  | .advance replies, m =>
    let s := m.advanceTx (.replying replies)
    (.count s.count, s.machine)

/-- Carries tasks out, one after the other. -/
def runAll : List TxTask → Machine → List Outcome × Machine
  | [], m => ([], m)
  | t :: ts, m =>
    let (os, m') := runAll ts (t.run m).2
    ((t.run m).1 :: os, m')

end TxTask

/-- A reply is a series of submissions. -/
theorem TxReply.sending (reply : TxReply) (m : Machine) :
    ReflTransGen (Sending permits) m (reply.run m) := by
  induction reply generalizing m with
  | done => exact .refl
  | submit p next ih =>
    have submitted := (ReflTransGen.single (@Sending.submit permits m p)).tail
      (.reply _ (.ofResult (m.submit p).1))
    exact submitted.trans (ih _ _)
  | look next ih => exact ih _ _ m

theorem Upper.abides_of_replies {u : Upper} {rs : List TxReply}
    (replies : u.replies = rs.map TxReply.run) : u.Abides (Sending permits) := by
  intro act h m
  rw [replies] at h
  obtain ⟨reply, -, rfl⟩ := mem_map.mp h
  exact reply.sending m

/-- Every task is a request to the ring. -/
theorem TxTask.request (t : TxTask) (m : Machine) : TxRequest permits m (t.run m).2 := by
  cases t with
  | start => exact .start m
  | cancel => exact .cancel m
  | submit p => exact .sending (.submit m p)
  | advance replies => exact .advance m (Upper.abides_of_replies rfl)

/-! ## What is compared -/

/-- What a transmit ring does, seen from either side. -/
inductive TxAct where
  /-- It found the adapter at a counter. -/
  | looked (c : Counter)
  /-- It took a packet in. -/
  | accepted (p : Packet)
  /-- It is about to write a packet. -/
  | posting (t : TxPost)
  /-- It wrote a descriptor. -/
  | wrote (slot : Nat) (d : TxDescriptor)
  /-- It rang the doorbell. -/
  | rang (v : UInt32)
  /-- It switched its direction. -/
  | switched (v : UInt32)
  /-- It handed a packet back. -/
  | completed (p : Packet)
  /-- It answered a request made in a callback. -/
  | replied (o : Outcome)

/-- The same act of a ring that stands `d` further on. -/
def TxAct.translate (size : Nat) (d : Counter) : TxAct → TxAct
  | .looked c => .looked (c + d)
  | .posting t => .posting (t.shift d)
  | .wrote slot x => .wrote ((slot + d.toNat) % size) x
  | .rang v => .rang (v.toUInt16 + d).toUInt32
  | act => act

namespace Event

/-- The act of a ring that an event shows. -/
def txAct? : Event → Option TxAct
  | .read .txConsumer v => some (.looked v.toUInt16)
  | .accepted p => some (.accepted p)
  | .posting t => some (.posting t)
  | .wroteTx slot d => some (.wrote slot d)
  | .wrote .txProducer v => some (.rang v)
  | .wrote .txDmaControl v => some (.switched v)
  | .completed p => some (.completed p)
  | .replied o => some (.replied o)
  | _ => none

/-- The counter at which the adapter was found. -/
def txReading? : Event → Option Counter
  | .read .txConsumer v => some v.toUInt16
  | _ => none

/-- What a request made in a callback came to. -/
def replied? : Event → Option Outcome
  | .replied o => some o
  | _ => none

/-- An event that shows no act of the ring. -/
def Actless (e : Event) : Prop := e.txAct? = none

theorem actless_moved (mv : Move) : (Event.moved mv).Actless := rfl

theorem actless_noticed (n : Notice) : (Event.noticed n).Actless := rfl

end Event

namespace Journal

/-- What the ring has done so far. -/
def txActs (j : Journal) : List TxAct := j.pick Event.txAct?

/-- Where the adapter was found so far. -/
def txReadings (j : Journal) : List Counter := j.pick Event.txReading?

/-- What the requests made in callbacks have come to so far. -/
def replies (j : Journal) : List Outcome := j.pick Event.replied?

/-- **What the acts of a ring show is read off them**: each of these lists is picked from the events
by way of the acts. -/
theorem pick_eq_of_bind {α : Type} (j : Journal) {f : Event → Option α} {g : TxAct → Option α}
    (h : ∀ e, e.txAct?.bind g = f e) : j.pick f = j.txActs.filterMap g := by
  rw [txActs, pick, pick, filterMap_filterMap]
  exact congrArg (filterMap · _) (funext fun e => (h e).symm)

/-- If the acts of two rings are translates of one another, so is all that is picked from them. -/
theorem pick_of_txActs {α : Type} {j j' : Journal} {size : Nat} {d : Counter}
    (acts : j'.txActs = j.txActs.map (.translate size d)) {f : Event → Option α}
    {g : TxAct → Option α} {moved : α → α} (h : ∀ e, e.txAct?.bind g = f e)
    (translates : ∀ a, g (a.translate size d) = (g a).map moved) :
    j'.pick f = (j.pick f).map moved := by
  rw [pick_eq_of_bind j' h, pick_eq_of_bind j h, acts, filterMap_map, map_filterMap]
  exact congrArg (filterMap · _) (funext translates)

end Journal

/-- The end of a use of two transmit rings, told from above and from below.  The second ring found
the adapter `d` further on, whenever it looked. -/
structure TxTranslated (slots : Nat) (d : Counter) (m m' : Machine) : Prop where
  /-- The same packets were handed back. -/
  completed : m'.journal.completed = m.journal.completed
  /-- The requests made in callbacks came to the same. -/
  replies : m'.journal.replies = m.journal.replies
  /-- The rings look the same. -/
  sight : m'.tx.map TxRing.sight = m.tx.map TxRing.sight
  /-- The same descriptors were written, `d` further on. -/
  written : m'.journal.written =
    m.journal.written.map fun w => ((w.1 + d.toNat) % slots, w.2)
  /-- Everything that the rings have done agrees, in its order. -/
  acts : m'.journal.txActs = m.journal.txActs.map (.translate slots d)

/-! ## Side by side -/

/-- A ring that has not been started yet. -/
structure TxRing.Unmoved (r : TxRing) : Prop where
  /-- It has passed nothing. -/
  passed : r.passed = []
  /-- It does not run. -/
  still : r.phase ≠ .running

/-- Two machines whose rings stand `e` apart, and have done the same but `d` apart. -/
structure Abreast (d e : Counter) (r : TxRing) (m m' : Machine) : Prop where
  /-- The first ring. -/
  tx : m.tx = some r
  /-- The second ring. -/
  tx' : m'.tx = some (r.shift e)
  /-- The first journal keeps every event. -/
  complete : m.journal.detail = .complete
  /-- So does the second. -/
  complete' : m'.journal.detail = .complete
  /-- The rings have done the same. -/
  acts : m'.journal.txActs = m.journal.txActs.map (.translate r.size.slots d)

/-- Nothing happens to the ring, and it does nothing. -/
structure TxRests (m k : Machine) : Prop where
  /-- The ring stays. -/
  tx : k.tx = m.tx
  /-- No act is entered. -/
  silent : m.Enters Event.Actless k

namespace TxRests

theorem turn (m : Machine) : TxRests m m.turn := ⟨Machine.tx_turn m, .turn Event.actless_moved m⟩

theorem give (m : Machine) (n : Notice) : TxRests m (m.give n) :=
  ⟨Machine.tx_give m n, .give Event.actless_noticed m n⟩

theorem giveIf (m : Machine) (condition : Bool) (n : Notice) : TxRests m (m.giveIf condition n) :=
  ⟨Machine.tx_giveIf m condition n, .giveIf Event.actless_noticed m condition n⟩

end TxRests

namespace Abreast

variable {d e : Counter} {r : TxRing} {m m' k k' : Machine}

/-! ### What follows for the journals -/

theorem readings (h : Abreast d e r m m') :
    m'.journal.txReadings = m.journal.txReadings.map (· + d) := by
  refine Journal.pick_of_txActs h.acts (g := fun | .looked c => some c | _ => none)
    (fun x => ?_) fun a => by cases a <;> rfl
  cases x <;> first | rfl | (rename_i reg _; cases reg <;> rfl)

theorem completed (h : Abreast d e r m m') : m'.journal.completed = m.journal.completed := by
  rw [← map_id m.journal.completed]
  refine Journal.pick_of_txActs h.acts (g := fun | .completed p => some p | _ => none)
    (fun x => ?_) fun a => by cases a <;> rfl
  cases x <;> first | rfl | (rename_i reg _; cases reg <;> rfl)

theorem replies (h : Abreast d e r m m') : m'.journal.replies = m.journal.replies := by
  rw [← map_id m.journal.replies]
  refine Journal.pick_of_txActs h.acts (g := fun | .replied o => some o | _ => none)
    (fun x => ?_) fun a => by cases a <;> rfl
  cases x <;> first | rfl | (rename_i reg _; cases reg <;> rfl)

theorem written (h : Abreast d e r m m') : m'.journal.written =
    m.journal.written.map fun w => ((w.1 + d.toNat) % r.size.slots, w.2) := by
  refine Journal.pick_of_txActs h.acts (g := fun | .wrote slot x => some (slot, x) | _ => none)
    (fun x => ?_) fun a => by cases a <;> rfl
  cases x <;> first | rfl | (rename_i reg _; cases reg <;> rfl)

theorem sight (h : Abreast d e r m m') : m'.tx.map TxRing.sight = m.tx.map TxRing.sight := by
  rw [h.tx, h.tx', Option.map_some, Option.map_some, TxRing.sight_shift]

theorem translated (h : Abreast d e r m m') : TxTranslated r.size.slots d m m' :=
  ⟨h.completed, h.replies, h.sight, h.written, h.acts⟩

/-! ### Small steps -/

/-- What does not concern the rings may happen on each side. -/
theorem rest (h : Abreast d e r m m') (first : TxRests m k) (second : TxRests m' k') :
    Abreast d e r k k' := by
  refine ⟨first.tx.trans h.tx, second.tx.trans h.tx', first.silent.detail.trans h.complete,
    second.silent.detail.trans h.complete', ?_⟩
  have none := first.silent.pick_eq (f := Event.txAct?) h.complete fun e he => he
  have none' := second.silent.pick_eq (f := Event.txAct?) h.complete' fun e he => he
  rw [Journal.txActs, none', Journal.txActs, none]
  exact h.acts

/-- Both sides enter the same act. -/
theorem record (h : Abreast d e r m m') {x x' : Event} {a : TxAct} (shows : x.txAct? = some a)
    (shows' : x'.txAct? = some (a.translate r.size.slots d)) :
    Abreast d e r (m.record x) (m'.record x') := by
  refine ⟨(Machine.tx_record _ _).trans h.tx, (Machine.tx_record _ _).trans h.tx', ?_, ?_, ?_⟩
  · rw [Machine.journal_record, Journal.detail_add]
    exact h.complete
  · rw [Machine.journal_record, Journal.detail_add]
    exact h.complete'
  · rw [Machine.journal_record, Machine.journal_record, Journal.txActs, Journal.txActs,
      Journal.pick_add h.complete, Journal.pick_add h.complete', shows, shows', Option.toList_some,
      Option.toList_some, map_append]
    exact congrArg (· ++ _) h.acts

/-- Both rings change in the same way, and may come to stand at another distance. -/
theorem setTx (h : Abreast d e r m m') {q : TxRing} (size : q.size = r.size) (e' : Counter) :
    Abreast d e' q (m.setTx q) (m'.setTx (q.shift e')) := by
  refine ⟨rfl, rfl, h.complete, h.complete', ?_⟩
  rw [size]
  exact h.acts

theorem modifyTx (h : Abreast d e r m m') {f g : TxRing → TxRing} (size : (f r).size = r.size)
    (commutes : g (r.shift e) = (f r).shift e) :
    Abreast d e (f r) (m.modifyTx f) (m'.modifyTx g) := by
  rw [Machine.modifyTx_eq_setTx h.tx, Machine.modifyTx_eq_setTx h.tx', commutes]
  exact h.setTx size e

/-- Both sides write a register. -/
theorem write (h : Abreast d e r m m') {reg : Register} {v v' : UInt32} {a : TxAct}
    (shows : (Event.wrote reg v).txAct? = some a)
    (shows' : (Event.wrote reg v').txAct? = some (a.translate r.size.slots d)) :
    Abreast d e r (m.write reg v) (m'.write reg v') := by
  have turned := h.rest (.turn m) (.turn m')
  have stored : Abreast d e r (m.turn.setAdapter (m.turn.adapter.write reg v))
      (m'.turn.setAdapter (m'.turn.adapter.write reg v')) :=
    ⟨turned.tx, turned.tx', turned.complete, turned.complete', turned.acts⟩
  exact stored.record shows shows'

/-- Both sides ring the doorbell. -/
theorem ring (h : Abreast d e r m m') (c : Counter) :
    Abreast d e r (m.writeCounter .txProducer c) (m'.writeCounter .txProducer (c + d)) := by
  have bell : (Event.wrote .txProducer (c + d).toUInt32).txAct? =
      some ((TxAct.rang c.toUInt32).translate r.size.slots d) := by
    simp [Event.txAct?, TxAct.translate]
  exact h.write rfl bell

/-- Both sides write a descriptor. -/
theorem writeTx (h : Abreast d e r m m') (slot : Nat) (x : TxDescriptor) :
    Abreast d e r (m.writeTx slot x) (m'.writeTx ((slot + d.toNat) % r.size.slots) x) := by
  have turned := h.rest (.turn m) (.turn m')
  have stored : Abreast d e r (m.turn.setAdapter (m.turn.adapter.writeTx slot x))
      (m'.turn.setAdapter (m'.turn.adapter.writeTx ((slot + d.toNat) % r.size.slots) x)) :=
    ⟨turned.tx, turned.tx', turned.complete, turned.complete', turned.acts⟩
  exact stored.record (a := .wrote slot x) rfl rfl

/-- What happens for each member of a list happens for all of them. -/
theorem foldl {α : Type} {f : Machine → α → Machine} {moved : α → α}
    (each : ∀ k k' a, Abreast d e r k k' → Abreast d e r (f k a) (f k' (moved a))) (as : List α)
    (h : Abreast d e r m m') : Abreast d e r (as.foldl f m) ((as.map moved).foldl f m') := by
  induction as generalizing m m' with
  | nil => exact h
  | cons a as ih => exact ih (each m m' a h)

/-! ### Readings -/

/-- What the journal keeps it keeps for good. -/
theorem readings_prefix (complete : m.journal.detail = .complete)
    (later : m.Enters (fun _ => True) k) : m.journal.txReadings <+: k.journal.txReadings := by
  obtain ⟨cs, grown, -⟩ := later.pick_append complete (f := Event.txReading?)
    (R := fun _ => True) fun _ _ _ _ => trivial
  exact ⟨cs, grown.symm⟩

/-- **Both sides look at the adapter.**  If the readings at the end agree, so do these. -/
theorem read (h : Abreast d e r m m') {cs : List Counter}
    (seen : (m.readCounter .txConsumer).2.journal.txReadings <+: cs)
    (seen' : (m'.readCounter .txConsumer).2.journal.txReadings <+: cs.map (· + d)) :
    (m'.readCounter .txConsumer).1 = (m.readCounter .txConsumer).1 + d ∧
      Abreast d e r (m.readCounter .txConsumer).2 (m'.readCounter .txConsumer).2 := by
  have turned := h.rest (.turn m) (.turn m')
  have grown (k : Machine) (complete : k.turn.journal.detail = .complete) :
      (k.readCounter .txConsumer).2.journal.txReadings =
        k.turn.journal.txReadings ++ [(k.readCounter .txConsumer).1] := by
    have added := Journal.pick_add complete Event.txReading?
      (.read .txConsumer (k.turn.adapter.read .txConsumer))
    rw [← Machine.journal_record] at added
    exact added
  have same : (m'.readCounter .txConsumer).1 = (m.readCounter .txConsumer).1 + d := by
    rw [grown m turned.complete] at seen
    rw [grown m' turned.complete', turned.readings] at seen'
    have both := seen.map (· + d)
    rw [map_append] at both
    have equal := (prefix_of_prefix_length_le both seen' (by simp)).eq_of_length (by simp)
    exact (singleton_inj.mp (append_cancel_left equal)).symm
  refine ⟨same, turned.record rfl ?_⟩
  exact congrArg (fun c => some (TxAct.looked c)) same

/-! ### Posting -/

theorem postPacket (h : Abreast d e r m m') (t : TxPost) :
    Abreast d e r (Machine.postPacket r.size m t) (Machine.postPacket r.size m' (t.shift d)) := by
  have announced : Abreast d e r (m.record (.posting t)) (m'.record (.posting (t.shift d))) :=
    h.record rfl rfl
  unfold Machine.postPacket
  rw [TxPost.writes_shift]
  exact announced.foldl (fun k k' w hk => hk.writeTx w.1 w.2) _

/-- **Both sides post**, and write the same descriptors. -/
theorem postTx (h : Abreast d d r m m') :
    Abreast d d (r.afterWalk r.postingWalk) m.postTx m'.postTx := by
  set w := r.postingWalk with hw
  have walked := (h.foldl (fun k k' t hk => hk.postPacket t) w.posts).modifyTx
    (f := fun r => r.afterWalk w) (g := fun r => r.afterWalk (w.shift d)) rfl (afterWalk_shift d r w)
  have bell {q : TxRing} {k k' : Machine} (hk : Abreast d d q k k') :
      Abreast d d q (k.ringTx w.written w.producer) (k'.ringTx w.written (w.producer + d)) := by
    unfold Machine.ringTx
    split
    · exact hk
    · exact (hk.ring w.producer).rest (.give _ _) (.give _ _)
  have same : (r.shift d).postingWalk = w.shift d := r.postingWalk_shift d
  unfold Machine.postTx
  rw [h.tx, h.tx']
  dsimp only
  rw [same, ← hw, Walk.written_shift]
  have stopped : (w.shift d).stopped = w.stopped := rfl
  rw [stopped]
  cases w.stopped with
  | none => exact bell walked
  | some stop => exact bell (walked.rest (.give _ _) (.give _ _))

end Abreast

/-! ## Tasks -/

/-- Two machines that were used in the same way so far.  Their rings stand `e` apart, which is `d`
unless they were never started. -/
def Together (d e : Counter) (m m' : Machine) : Prop :=
  ∃ r, Abreast d e r m m' ∧ (e = d ∨ r.Unmoved)

/-- Two requests under way, which have counted the same and have the same replies to come. -/
structure ServedTogether (d e : Counter) (s s' : Served) : Prop where
  /-- They have counted the same. -/
  count : s'.count = s.count
  /-- The same replies are to come. -/
  replies : ∃ rs : List TxReply, s.upper.replies = rs.map TxReply.run ∧
    s'.upper.replies = rs.map TxReply.run
  /-- Their machines were used in the same way. -/
  machines : Together d e s.machine s'.machine

namespace Together

variable {d e : Counter} {m m' : Machine}

/-- **A submission comes to the same on both sides.** -/
theorem submit (h : Together d e m m') (p : Packet) :
    (m'.submit p).1 = (m.submit p).1 ∧ Together d e (m.submit p).2 (m'.submit p).2 := by
  obtain ⟨r, abreast, apart⟩ := h
  have same : (r.shift e).refusal? p = r.refusal? p := rfl
  unfold Machine.submit
  rw [abreast.tx, abreast.tx', Option.bind_some, Option.bind_some, same]
  cases r.refusal? p with
  | some cause => exact ⟨rfl, r, abreast, apart⟩
  | none =>
    have accepted := abreast.modifyTx (f := fun r => r.accept p) (g := fun r => r.accept p) rfl
      (accept_shift e r p)
    exact ⟨rfl, r.accept p, accepted.record rfl rfl,
      apart.imp_right fun unmoved => ⟨unmoved.passed, unmoved.still⟩⟩

/-- **A callback does the same on both sides**, since it sees the same. -/
theorem reply (reply : TxReply) (h : Together d e m m') :
    Together d e (reply.run m) (reply.run m') := by
  induction reply generalizing m m' with
  | done => exact h
  | submit p next ih =>
    obtain ⟨same, r, abreast, apart⟩ := h.submit p
    unfold TxReply.run
    dsimp only
    rw [same]
    exact ih _ ⟨r, abreast.record rfl rfl, apart⟩
  | look next ih =>
    obtain ⟨r, abreast, -⟩ := id h
    unfold TxReply.run
    rw [abreast.sight, abreast.completed]
    exact ih _ _ h

theorem cancelTx (h : Together d e m m') : Together d e m.cancelTx m'.cancelTx := by
  obtain ⟨r, abreast, apart⟩ := h
  have same : (r.shift e).isCancelled = r.isCancelled := rfl
  unfold Machine.cancelTx
  rw [abreast.tx, abreast.tx', Option.any_some, Option.any_some, same]
  split
  · exact ⟨r, abreast, apart⟩
  · have off : Abreast d e r (m.write .txDmaControl DmaControl.off)
        (m'.write .txDmaControl DmaControl.off) := abreast.write rfl rfl
    have cancelled := off.modifyTx (f := TxRing.cancel) (g := TxRing.cancel) rfl (cancel_shift e r)
    refine ⟨r.cancel, cancelled.rest (.give _ _) (.give _ _), apart.imp_right fun unmoved => ?_⟩
    refine ⟨?_, fun running => Phase.noConfusion running⟩
    unfold cancel
    rw [unmoved.passed]
    rfl

/-- **A start is refused on both sides or on neither**, and brings the rings `d` apart. -/
theorem startTx (h : Together d e m m') {cs : List Counter}
    (seen : m.startTx.2.journal.txReadings <+: cs)
    (seen' : m'.startTx.2.journal.txReadings <+: cs.map (· + d)) :
    m'.startTx.1 = m.startTx.1 ∧ ∃ e', Together d e' m.startTx.2 m'.startTx.2 ∧
      (e' = d ∨ e' = e ∧ m.startTx.1 ≠ .ok ()) := by
  obtain ⟨r, abreast, apart⟩ := h
  unfold Machine.startTx at seen seen' ⊢
  rw [abreast.tx, Option.any_some] at seen ⊢
  rw [abreast.tx', Option.any_some, inFlight_shift] at seen' ⊢
  split
  · exact ⟨rfl, e, ⟨r, abreast, apart⟩, .inr ⟨rfl, nofun⟩⟩
  · rename_i clear
    rw [if_neg clear] at seen seen'
    have later (k : Machine) (c : Counter) : k.Enters (fun _ => True)
        ((((k.modifyTx fun r => r.begin c).writeCounter .txProducer c).write .txDmaControl
          DmaControl.enable).give (.txStarted c)) :=
      (Machine.Enters.modifyTx _ k _).trans ((Machine.Enters.write (fun _ => trivial) trivial _).trans
        ((Machine.Enters.write (fun _ => trivial) trivial _).trans
          (.give (fun _ => trivial) _ _)))
    have kept (k : Machine) (complete : k.journal.detail = .complete) :
        (k.readCounter .txConsumer).2.journal.detail = .complete :=
      (Machine.Enters.read (P := fun _ => True) (fun _ => trivial) (fun _ => trivial) k).detail.trans
        complete
    obtain ⟨same, read⟩ := abreast.read
      ((Abreast.readings_prefix (kept m abreast.complete) (later _ _)).trans seen)
      ((Abreast.readings_prefix (kept m' abreast.complete') (later _ _)).trans seen')
    dsimp only
    rw [same]
    set c := (m.readCounter .txConsumer).1
    have entries : r.passed.map (TxEntry.shift e) = r.passed.map (.shift d) := by
      rcases apart with rfl | unmoved
      · rfl
      · rw [unmoved.passed, map_nil, map_nil]
    have placed := read.setTx (q := r.begin c) rfl d
    rw [← begin_shift d c r entries, ← Machine.modifyTx_eq_setTx read.tx fun r => r.begin c,
      ← Machine.modifyTx_eq_setTx read.tx' fun r => r.begin (c + d)] at placed
    have on {k k' : Machine} (hk : Abreast d d (r.begin c) k k') : Abreast d d (r.begin c)
        (k.write .txDmaControl DmaControl.enable) (k'.write .txDmaControl DmaControl.enable) :=
      hk.write rfl rfl
    exact ⟨rfl, d, ⟨r.begin c, (on (placed.ring c)).rest (.give _ _) (.give _ _), .inl rfl⟩,
      .inl rfl⟩

end Together

/-! ## Serving -/

/-- While the ring is at work the journal only grows. -/
theorem Sending.enters_of_working {p : Part} {shifts : Prop} {m m' : Machine}
    (run : Working p shifts (Sending permits) m m') : m.Enters (fun _ => True) m' :=
  run.keeps (P := m.Enters fun _ => True)
    (fun _ _ stroke h => h.trans (stroke.entered.mono fun _ _ => trivial))
    (fun _ _ act h => h.trans (act.meanwhile.enters.mono fun _ _ => trivial)) (.refl _ m)

namespace ServedTogether

variable {d e : Counter} {s s' : Served} {r : TxRing}

theorem reply (h : ServedTogether d e s s') : ServedTogether d e s.reply s'.reply := by
  obtain ⟨count, ⟨rs, replies, replies'⟩, together⟩ := h
  unfold Served.reply
  rw [replies, replies']
  cases rs with
  | nil => exact ⟨count, ⟨[], replies, replies'⟩, together⟩
  | cons reply rs => exact ⟨count, ⟨rs, rfl, rfl⟩, together.reply reply⟩

/-- **A packet is handed back on both sides**, and the callbacks do the same. -/
theorem settled (h : ServedTogether d e s s') {q : TxRing} {p : Packet}
    (abreast : Abreast d e r s.machine s'.machine) (size : q.size = r.size)
    (apart : e = d ∨ q.Unmoved) :
    ServedTogether d e (s.settled q p).reply (s'.settled (q.shift e) p).reply := by
  have counted := abreast.setTx (q := q.settle p) size e
  exact ServedTogether.reply ⟨congrArg (· + 1) h.count, h.replies, q.settle p,
    counted.record (a := .completed p) rfl rfl, apart.imp_right fun unmoved => ⟨unmoved.passed, unmoved.still⟩⟩

theorem completeDone (n : Nat) (s s' : Served) (h : ServedTogether d d s s') :
    (Machine.completeDone n s').1 = (Machine.completeDone n s).1 ∧
      ServedTogether d d (Machine.completeDone n s).2 (Machine.completeDone n s').2 := by
  obtain ⟨r, abreast, -⟩ := h.machines
  cases next : r.takeDone? n with
  | none =>
    have next' : (r.shift d).takeDone? n = none := by rw [takeDone?_shift, next, Option.map_none]
    rw [Machine.completeDone_of_none abreast.tx next, Machine.completeDone_of_none abreast.tx' next']
    exact ⟨rfl, h⟩
  | some taken =>
    obtain ⟨p, q⟩ := taken
    have next' : (r.shift d).takeDone? n = some (p, q.shift d) := by
      rw [takeDone?_shift, next, Option.map_some]
    have size : q.size = r.size := by
      rcases takeDone?_eq_some_iff.mp next with ⟨rest, -, rfl⟩ | ⟨last, rest, -, -, rfl⟩ <;> rfl
    rw [Machine.completeDone_of_some abreast.tx next, Machine.completeDone_of_some abreast.tx' next']
    exact ⟨rfl, h.settled abreast size (.inl rfl)⟩

theorem completeOldest (s s' : Served) (h : ServedTogether d e s s') :
    (Machine.completeOldest s').1 = (Machine.completeOldest s).1 ∧
      ServedTogether d e (Machine.completeOldest s).2 (Machine.completeOldest s').2 := by
  obtain ⟨r, abreast, apart⟩ := h.machines
  cases next : r.takeOldest? with
  | none =>
    have next' : (r.shift e).takeOldest? = none := by rw [takeOldest?_shift, next, Option.map_none]
    rw [Machine.completeOldest_of_none abreast.tx next,
      Machine.completeOldest_of_none abreast.tx' next']
    exact ⟨rfl, h⟩
  | some taken =>
    obtain ⟨p, q⟩ := taken
    have next' : (r.shift e).takeOldest? = some (p, q.shift e) := by
      rw [takeOldest?_shift, next, Option.map_some]
    have kept : q.size = r.size ∧ (r.Unmoved → q.Unmoved) := by
      rcases takeOldest?_eq_some_iff.mp next with ⟨x, rest, hp, -, rfl⟩ | ⟨rest, hp, -, rfl⟩
      · exact ⟨rfl, fun unmoved => absurd (hp.symm.trans unmoved.passed) (cons_ne_nil _ _)⟩
      · exact ⟨rfl, fun unmoved => ⟨hp, unmoved.still⟩⟩
    rw [Machine.completeOldest_of_some abreast.tx next,
      Machine.completeOldest_of_some abreast.tx' next']
    exact ⟨rfl, h.settled abreast kept.1 (apart.imp_right kept.2)⟩

/-- **A cancelled ring is emptied in the same way on both sides.** -/
theorem drainTx (h : ServedTogether d e s s') :
    ServedTogether d e (Machine.drainTx s) (Machine.drainTx s') := by
  obtain ⟨r, abreast, -⟩ := h.machines
  have looped := loop_keeps_both completeOldest r.queue.length h
  unfold Machine.drainTx
  rw [abreast.tx, abreast.tx', Option.map_some, Option.map_some, queue_shift, Option.getD_some]
  obtain ⟨q, abreast', apart⟩ := looped.machines
  exact ⟨looped.count, looped.replies, q.abandon,
    abreast'.modifyTx (f := TxRing.abandon) (g := TxRing.abandon) rfl (abandon_shift e q),
    apart.imp_right fun unmoved => ⟨unmoved.passed, unmoved.still⟩⟩

/-- The callbacks to come submit packets, and nothing else. -/
theorem abides (h : ServedTogether d e s s') :
    s.upper.Abides (Sending permits) ∧ s'.upper.Abides (Sending permits) := by
  obtain ⟨rs, replies, replies'⟩ := h.replies
  exact ⟨Upper.abides_of_replies replies, Upper.abides_of_replies replies'⟩

/-- **Packets that are done are handed back in the same way on both sides.** -/
theorem reclaimTx (h : ServedTogether d d s s') {cs : List Counter}
    (seen : (Machine.reclaimTx s).machine.journal.txReadings <+: cs)
    (seen' : (Machine.reclaimTx s').machine.journal.txReadings <+: cs.map (· + d)) :
    ServedTogether d d (Machine.reclaimTx s) (Machine.reclaimTx s') := by
  obtain ⟨r, abreast, -⟩ := h.machines
  have later (t : Served) (abides : t.upper.Abides (Sending fun _ => True)) :
      (t.machine.readCounter .txConsumer).2.Enters (fun _ => True)
        (Machine.reclaimTx t).machine := by
    set k := (t.machine.readCounter .txConsumer).2
    have checked : Working .tx True (Sending fun _ => True) k
        (k.checkTxReading (t.machine.readCounter .txConsumer).1) :=
      Machine.working_checkTxReading k _
    have begun : Served.Works .tx True (Sending fun _ => True) k
        { t with machine := k.checkTxReading (t.machine.readCounter .txConsumer).1 } :=
      ⟨checked, abides⟩
    have looped (n rounds : Nat) := Served.Works.loop (Machine.works_completeDone n) rounds begun
    unfold Machine.reclaimTx
    exact Sending.enters_of_working ((looped _ _).onMachine fun k =>
      Working.giveIf k _ _ rfl).run
  have kept (k : Machine) (complete : k.journal.detail = .complete) :
      (k.readCounter .txConsumer).2.journal.detail = .complete :=
    (Machine.Enters.read (P := fun _ => True) (fun _ => trivial) (fun _ => trivial) k).detail.trans
      complete
  obtain ⟨same, read⟩ := abreast.read
    ((Abreast.readings_prefix (kept _ abreast.complete) (later s h.abides.1)).trans seen)
    ((Abreast.readings_prefix (kept _ abreast.complete') (later s' h.abides.2)).trans seen')
  unfold Machine.reclaimTx
  dsimp only
  rw [same, read.tx, read.tx', Option.map_some, Option.map_some, Option.map_some, Option.map_some,
    unconsumed_shift]
  have passed : (r.shift d).passed.length = r.passed.length := length_map _
  rw [passed, Option.getD_some, Option.getD_some]
  set c := (s.machine.readCounter .txConsumer).1
  have checked : ServedTogether d d
      { s with machine := (s.machine.readCounter .txConsumer).2.checkTxReading c }
      { s' with machine := (s'.machine.readCounter .txConsumer).2.checkTxReading (c + d) } := by
    refine ⟨h.count, h.replies, r.noteReading c, ?_, .inl rfl⟩
    unfold Machine.checkTxReading
    rw [read.tx, read.tx']
    dsimp only
    have size : (r.noteReading c).size = r.size := by
      obtain ⟨n, noted⟩ := exists_noteReading_eq r c
      rw [noted]
    exact (read.rest (.giveIf _ _ _) (.giveIf _ _ _)).modifyTx (f := fun r => r.noteReading c)
      (g := fun r => r.noteReading (c + d)) size (noteReading_shift d c r)
  obtain ⟨count, replies, q, abreast', apart⟩ :=
    loop_keeps_both (completeDone (r.unconsumed c)) r.passed.length checked
  exact ⟨count, replies, q, abreast'.rest (.giveIf _ _ _) (.giveIf _ _ _), apart⟩

end ServedTogether

namespace Together

variable {d e : Counter} {m m' : Machine}

/-- **Serving does the same on both sides.** -/
theorem advanceTx (h : Together d e m m') {u : Upper} {rs : List TxReply}
    (replies : u.replies = rs.map TxReply.run) {cs : List Counter}
    (seen : (m.advanceTx u).machine.journal.txReadings <+: cs)
    (seen' : (m'.advanceTx u).machine.journal.txReadings <+: cs.map (· + d)) :
    ServedTogether d e (m.advanceTx u) (m'.advanceTx u) := by
  obtain ⟨r, abreast, apart⟩ := h
  have phase : (r.shift e).phase = r.phase := rfl
  have begun {k k' : Machine} (hk : Together d e k k') :
      ServedTogether d e (.start u k) (.start u k') := ⟨rfl, ⟨rs, replies, replies⟩, hk⟩
  have collected := abreast.modifyTx (f := TxRing.collect) (g := TxRing.collect) rfl
    (collect_shift e r)
  unfold Machine.advanceTx at seen seen' ⊢
  rw [abreast.tx] at seen ⊢
  rw [abreast.tx'] at seen' ⊢
  dsimp only at seen seen' ⊢
  rw [phase] at seen' ⊢
  cases running : r.phase with
  | stopped => exact begun ⟨r, abreast, apart⟩
  | cancelled =>
    have entered : Together d e (m.modifyTx TxRing.collect) (m'.modifyTx TxRing.collect) :=
      ⟨r.collect, collected, apart.imp_right fun unmoved => ⟨unmoved.passed, unmoved.still⟩⟩
    exact (begun entered).drainTx
  | running =>
    rw [running] at seen seen'
    obtain rfl : e = d := apart.resolve_right fun unmoved => unmoved.still running
    exact (begun ⟨_, collected.postTx, .inl rfl⟩).reclaimTx seen seen'

/-- **Every task comes to the same on both sides.**  The rings go on at their distance, unless the
task was a start that succeeded: then they are `d` apart. -/
theorem task (h : Together d e m m') (t : TxTask) {cs : List Counter}
    (seen : (t.run m).2.journal.txReadings <+: cs)
    (seen' : (t.run m').2.journal.txReadings <+: cs.map (· + d)) :
    (t.run m').1 = (t.run m).1 ∧ ∃ e', Together d e' (t.run m).2 (t.run m').2 ∧
      (e' = d ∨ e' = e ∧ ¬(t = .start ∧ (t.run m).1 = .done)) := by
  cases t with
  | start =>
    obtain ⟨same, e', together, apart⟩ := h.startTx seen seen'
    refine ⟨congrArg Outcome.ofResult same, e', together, apart.imp_right fun stays => ?_⟩
    refine ⟨stays.1, fun ok => stays.2 ?_⟩
    have answer : Outcome.ofResult m.startTx.1 = .done := ok.2
    revert answer
    cases m.startTx.1 with
    | error => exact nofun
    | ok => exact fun _ => rfl
  | cancel => exact ⟨rfl, e, h.cancelTx, .inr ⟨rfl, nofun⟩⟩
  | submit p =>
    obtain ⟨same, together⟩ := h.submit p
    exact ⟨congrArg Outcome.ofResult same, e, together, .inr ⟨rfl, nofun⟩⟩
  | advance replies =>
    have served := h.advanceTx (u := .replying replies) rfl seen seen'
    exact ⟨congrArg Outcome.count served.count, e, served.machines, .inr ⟨rfl, nofun⟩⟩

end Together

/-! ## Whole uses -/

namespace TxTask

variable {d e : Counter} {m m' : Machine}

theorem run_enters (t : TxTask) (m : Machine) : m.Enters (fun _ => True) (t.run m).2 := by
  cases t with
  | start =>
    have run : Working .tx True (Sending fun _ => True) m m.startTx.2 := Machine.working_startTx m
    exact Sending.enters_of_working run
  | cancel =>
    have run : Working .tx True (Sending fun _ => True) m m.cancelTx := Machine.working_cancelTx m
    exact Sending.enters_of_working run
  | submit p =>
    have act : Sending (fun _ => True) m (m.submit p).2 := .submit m p
    exact act.meanwhile.enters.mono fun _ _ => trivial
  | advance replies =>
    have abides : (Upper.replying replies).Abides (Sending fun _ => True) :=
      Upper.abides_of_replies rfl
    exact Sending.enters_of_working (Machine.works_advanceTx m abides).run

theorem runAll_enters (ts : List TxTask) (m : Machine) :
    m.Enters (fun _ => True) (runAll ts m).2 := by
  induction ts generalizing m with
  | nil => exact .refl _ m
  | cons t ts ih => exact (t.run_enters m).trans (ih _)

theorem runAll_append (ts us : List TxTask) (m : Machine) :
    (runAll (ts ++ us) m).2 = (runAll us (runAll ts m).2).2 := by
  induction ts generalizing m with
  | nil => rfl
  | cons t ts ih => exact ih _

/-- A use is a series of requests. -/
theorem requests (ts : List TxTask) (m : Machine) :
    ReflTransGen (TxRequest permits) m (runAll ts m).2 := by
  induction ts generalizing m with
  | nil => exact .refl
  | cons t ts ih => exact (ReflTransGen.single (t.request m)).trans (ih _)

/-- A use leaves the size of the ring. -/
theorem size_runAll (ts : List TxTask) {r q : TxRing} (tx : m.tx = some r)
    (tx' : (runAll ts m).2.tx = some q) : q.size = r.size := by
  have ready : TxReady (fun _ => True) r.size r.depth m :=
    ⟨⟨r, tx, rfl, rfl⟩, fun _ _ _ _ => trivial⟩
  obtain ⟨q', hq, size, -⟩ := (ready.steps (steps_of_requests (requests ts m) ready)).ring
  obtain rfl := Option.some.inj (hq.symm.trans tx')
  exact size

end TxTask

/-- **A use comes to the same on both sides.**  Once a start has succeeded, the rings are `d`
apart. -/
theorem Together.tasks {d e : Counter} {m m' : Machine} (ts : List TxTask) (h : Together d e m m')
    {cs : List Counter} (seen : (TxTask.runAll ts m).2.journal.txReadings <+: cs)
    (seen' : (TxTask.runAll ts m').2.journal.txReadings <+: cs.map (· + d)) :
    (TxTask.runAll ts m').1 = (TxTask.runAll ts m).1 ∧
      ∃ e', Together d e' (TxTask.runAll ts m).2 (TxTask.runAll ts m').2 ∧ (e = d → e' = d) ∧
        ((.start, .done) ∈ ts.zip (TxTask.runAll ts m).1 → e' = d) := by
  induction ts generalizing e m m' with
  | nil => exact ⟨rfl, e, h, id, fun none => absurd none not_mem_nil⟩
  | cons t ts ih =>
    obtain ⟨r, abreast, -⟩ := id h
    have first := (t.run_enters m).detail.trans abreast.complete
    have first' := (t.run_enters m').detail.trans abreast.complete'
    obtain ⟨same, e₁, together, apart⟩ := h.task t
      ((Abreast.readings_prefix first (TxTask.runAll_enters ts _)).trans seen)
      ((Abreast.readings_prefix first' (TxTask.runAll_enters ts _)).trans seen')
    obtain ⟨sames, e', together', stay, started⟩ := ih together seen seen'
    refine ⟨congrArg₂ List.cons same sames, e', together', fun before => ?_, fun ok => ?_⟩
    · exact stay (apart.elim id fun stays => stays.1.trans before)
    · rcases mem_cons.mp ok with now | later
      · obtain ⟨task, answer⟩ := Prod.mk.inj now
        exact stay (apart.elim id fun stays => absurd ⟨task.symm, answer.symm⟩ stays.2)
      · exact started later

/-- **A use of a transmit ring does not depend on where the adapter's counter stands.**  Two rings of
one size and depth are used in the same way, with the same replies in the callbacks, and whenever the
first one finds its adapter at a counter, the second one finds its own `d` further on.  Then every
task comes to the same, and after each of them the same packets were handed back, the requests of the
callbacks came to the same, the rings show the same figures, and the descriptors written are the
same, `d` further on.  From the first start that succeeds the producers are `d` apart. -/
theorem runs_translate {slots depth : Nat} {m₀ m₀' : Machine} (new : m₀.NewTx slots depth)
    (new' : m₀'.NewTx slots depth) (tasks : List TxTask) (d : Counter)
    (readings : (TxTask.runAll tasks m₀').2.journal.txReadings =
      (TxTask.runAll tasks m₀).2.journal.txReadings.map (· + d)) :
    (TxTask.runAll tasks m₀').1 = (TxTask.runAll tasks m₀).1 ∧
      ∀ first, first <+: tasks →
        TxTranslated slots d (TxTask.runAll first m₀).2 (TxTask.runAll first m₀').2 ∧
          ((.start, .done) ∈ first.zip (TxTask.runAll first m₀).1 →
            ∃ r r', (TxTask.runAll first m₀).2.tx = some r ∧
              (TxTask.runAll first m₀').2.tx = some r' ∧ r'.producer = r.producer + d) := by
  obtain ⟨r₀, made, tx⟩ := new.made
  obtain ⟨r₀', made', tx'⟩ := new'.made
  obtain rfl : r₀ = r₀' := Except.ok.inj (made.symm.trans made')
  obtain ⟨size, rfl, rfl⟩ := TxRing.create_eq_ok made
  have begun : Together d 0 m₀ m₀' := by
    refine ⟨_, ⟨tx, tx'.trans (congrArg some (shift_zero _).symm), new.complete, new'.complete, ?_⟩,
      .inr ⟨rfl, Phase.noConfusion⟩⟩
    rw [Journal.txActs, Journal.txActs, Journal.pick, Journal.pick, new.fresh, new'.fresh]
    rfl
  have whole := begun.tasks tasks (prefix_refl _) (readings ▸ prefix_refl _)
  refine ⟨whole.1, ?_⟩
  rintro first ⟨rest, rfl⟩
  have grown {k : Machine} (complete : k.journal.detail = .complete) :
      (TxTask.runAll first k).2.journal.txReadings <+:
        (TxTask.runAll (first ++ rest) k).2.journal.txReadings := by
    rw [TxTask.runAll_append]
    exact Abreast.readings_prefix ((TxTask.runAll_enters first k).detail.trans complete)
      (TxTask.runAll_enters rest _)
  obtain ⟨-, e, ⟨r, abreast, -⟩, -, started⟩ := begun.tasks first (grown new.complete)
    (readings ▸ grown new'.complete)
  refine ⟨?_, fun ok => ?_⟩
  · have translated := abreast.translated
    rw [TxTask.size_runAll first tx abreast.tx] at translated
    exact translated
  · rw [← started ok]
    exact ⟨r, r.shift e, abreast.tx, abreast.tx', rfl⟩

/-- One ring begins at the counter 0, the other one descriptor before the counters wrap.  The
callback of the first packet looks at the ring and submits a second one. -/
theorem runs_translate_over_the_wrap :
    ∃ (m₀ m₀' : Machine) (tasks : List TxTask), m₀.NewTx 4 4 ∧ m₀'.NewTx 4 4 ∧
      (TxTask.runAll tasks m₀).2.journal.txReadings = [0, 2, 3] ∧
      (TxTask.runAll tasks m₀').2.journal.txReadings = [65535, 1, 2] ∧
      (TxTask.runAll tasks m₀).2.journal.written.map Prod.fst = [0, 1, 2] ∧
      (TxTask.runAll tasks m₀').2.journal.written.map Prod.fst = [3, 0, 1] ∧
      (TxTask.runAll tasks m₀').1 = (TxTask.runAll tasks m₀).1 ∧
      TxTranslated 4 65535 (TxTask.runAll tasks m₀).2 (TxTask.runAll tasks m₀').2 ∧
      ∃ r r', (TxTask.runAll tasks m₀).2.tx = some r ∧ (TxTask.runAll tasks m₀').2.tx = some r' ∧
        r'.producer = r.producer + 65535 := by
  let p : Packet := Packet.single 1 ⟨.ofNat 0x1000, 64⟩
  let tasks : List TxTask :=
    [.start, .submit (p.push ⟨.ofNat 0x1100, 64⟩),
      .advance [.look fun _ _ => .submit p fun _ => .done], .advance []]
  let agenda : List (List Move) := [[], [], [], [], [], [.consume 2], [], [], [.consume 1]]
  let m₀ : Machine := { Machine.withTx ⟨4, by decide⟩ 4 with agenda := [] :: agenda }
  let m₀' : Machine :=
    { Machine.withTx ⟨4, by decide⟩ 4 with agenda := [.assign .txConsumer 65535] :: agenda }
  have new : m₀.NewTx 4 4 := ⟨⟨_, rfl, rfl⟩, rfl, rfl, rfl⟩
  have new' : m₀'.NewTx 4 4 := ⟨⟨_, rfl, rfl⟩, rfl, rfl, rfl⟩
  have readings : (TxTask.runAll tasks m₀').2.journal.txReadings =
      (TxTask.runAll tasks m₀).2.journal.txReadings.map (· + 65535) := by decide +kernel
  obtain ⟨results, each⟩ := runs_translate new new' tasks 65535 readings
  obtain ⟨translated, producers⟩ := each tasks (prefix_refl _)
  have ok : m₀.startTx.1 = .ok () := by decide
  have started : (.start, .done) ∈ tasks.zip (TxTask.runAll tasks m₀).1 := by
    have first : tasks.zip (TxTask.runAll tasks m₀).1 = (.start, .ofResult m₀.startTx.1) :: _ := rfl
    rw [first, ok]
    exact mem_cons_self
  exact ⟨m₀, m₀', tasks, new, new', by decide +kernel, by decide +kernel, by decide +kernel,
    by decide +kernel, results, translated, producers started⟩

end DescriptorRings
