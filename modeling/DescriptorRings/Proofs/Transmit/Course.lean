import DescriptorRings.Machine.Transmission
import DescriptorRings.Proofs.Device.Law
import DescriptorRings.Proofs.Machine.Moments

/-!
# The course of a transmit request

The order in which a request reads and writes decides what the adapter can see in between.  This
file lays that order out: a *point* says where a request stands, and `TxStep` lists everything that
can happen next.  Each step changes one thing and has at most one event, at its end.

    start     idle ─read─▶ starting ──▶ placed ─doorbell─▶ aligned ─switch on─▶ idle
    cancel    idle ─switch off─▶ silenced ──▶ idle
    advance   idle ──▶ walking ─announce─▶ writing ─descriptors─▶ walking … walked ─doorbell─▶ idle
              idle ─read─▶ reclaiming ─hand back─▶ reclaiming … ──▶ idle
              idle ──▶ draining ─hand back─▶ draining … ──▶ idle

Five things can happen at every point: the adapter makes a move or changes its plans, something
happens that has nothing to do with the ring (`TxApart`), something is entered in the journal that
concerns nobody here, and a packet is taken in.  The last is more than the upper layer needs, who
submits only between requests and in callbacks.

`TxRequest` is the other end: the requests themselves, as they are made.  That a request is a run of
steps is shown in `Proofs.Transmit.Simulation`; what steps keep, requests keep.
-/

namespace DescriptorRings

open Relation TxRing

/-! ## Points -/

/-- Where a request to the transmit ring stands. -/
inductive TxPoint where
  /-- Between two requests. -/
  | idle
  /-- The adapter's counter was read; the ring is not there yet. -/
  | starting (c : Counter)
  /-- The ring stands at the counter; the doorbell may say something else. -/
  | placed (c : Counter)
  /-- The doorbell agrees with the ring; the direction has not been switched on. -/
  | aligned (c : Counter)
  /-- The direction is switched off; the packets are not marked yet. -/
  | silenced
  /-- Some posts of a walk are written, the others are not. -/
  | walking (w : Walk) (done todo : List TxPost)
  /-- The first `k` descriptors of a post are written. -/
  | writing (w : Walk) (done : List TxPost) (t : TxPost) (todo : List TxPost) (k : Nat)
  /-- The ring knows of the walk; the doorbell does not. -/
  | walked (w : Walk)
  /-- Packets are being handed back, as long as that leaves enough descriptors. -/
  | reclaiming (unconsumed : Nat)
  /-- Every packet is being handed back. -/
  | draining

/-- The walk that a request is carrying out. -/
def TxPoint.walk? : TxPoint → Option Walk
  | .walking w _ _ | .writing w _ _ _ _ => some w
  | _ => none

/-! ## Steps -/

/-- An event that reports on something else than the ring. -/
def Event.isAside : Event → Bool
  | .accepted _ | .completed _ | .posting _ | .wroteTx _ _ | .moved _
  | .wrote .txProducer _ | .wrote .txDmaControl _ => false
  | _ => true

/-- Something happens that has nothing to do with the ring: another part changes, or the adapter
does, but not in what belongs to the transmit direction. -/
structure TxApart (m m' : Machine) : Prop where
  /-- The ring is left alone. -/
  tx : m'.tx = m.tx
  /-- So are the registers of its direction. -/
  registers : m.adapter.Agrees .tx m'.adapter
  /-- So are its descriptors. -/
  table : m'.adapter.txTable = m.adapter.txTable
  /-- The adapter keeps its plans. -/
  agenda : m'.agenda = m.agenda
  /-- There is no event. -/
  journal : m'.journal = m.journal
  /-- There is no moment to remember. -/
  moments : m'.moments = m.moments

/-- What happens next. -/
inductive TxStep (permits : Move → Prop) : TxPoint × Machine → TxPoint × Machine → Prop
  /-- The adapter changes its plans. -/
  | plan {x m} {agenda : List (List Move)} (h : Machine.Permitted permits agenda) :
      TxStep permits (x, m) (x, { m with agenda := agenda })
  /-- The adapter makes a move. -/
  | move {x m mv} (h : permits mv) : TxStep permits (x, m) (x, m.move mv)
  /-- Something happens elsewhere. -/
  | elsewhere {x m m'} (h : TxApart m m') : TxStep permits (x, m) (x, m')
  /-- Something is entered in the journal. -/
  | note {x m} {e : Event} (h : e.isAside) : TxStep permits (x, m) (x, m.record e)
  /-- A packet is taken in. -/
  | accept {x m} {r : TxRing} {p : Packet} (tx : m.tx = some r) (free : r.refusal? p = none) :
      TxStep permits (x, m) (x, (m.setTx (r.accept p)).record (.accepted p))
  /-- The adapter's counter is read in order to start. -/
  | look {m} {r : TxRing} (tx : m.tx = some r) (clear : r.inFlight = 0) :
      TxStep permits (.idle, m)
        (.starting (m.adapter.counter .txConsumer), m.peek .txConsumer)
  /-- The ring is put there. -/
  | place {m c} {r : TxRing} (tx : m.tx = some r) :
      TxStep permits (.starting c, m) (.placed c, m.setTx (r.begin c))
  /-- The doorbell is put there as well. -/
  | align {m c} :
      TxStep permits (.placed c, m)
        (.aligned c, m.poke .txProducer c.toUInt32)
  /-- The direction is switched on. -/
  | switchOn {m c} :
      TxStep permits (.aligned c, m)
        (.idle, m.poke .txDmaControl DmaControl.enable)
  /-- The direction is switched off. -/
  | switchOff {m} :
      TxStep permits (.idle, m)
        (.silenced, m.poke .txDmaControl DmaControl.off)
  /-- The packets past the intake are marked. -/
  | mark {m} {r : TxRing} (tx : m.tx = some r) :
      TxStep permits (.silenced, m) (.idle, m.setTx r.cancel)
  /-- The intake joins the waiting packets. -/
  | collect {m} {r : TxRing} (tx : m.tx = some r) :
      TxStep permits (.idle, m) (.idle, m.setTx r.collect)
  /-- A running ring finds out what it can post. -/
  | survey {m} {r : TxRing} (tx : m.tx = some r) (running : r.phase = .running) :
      TxStep permits (.idle, m) (.walking r.postingWalk [] r.postingWalk.posts, m)
  /-- The next post is announced. -/
  | announce {m w done t todo} :
      TxStep permits (.walking w done (t :: todo), m)
        (.writing w done t todo 0, m.record (.posting t))
  /-- Its next descriptor is written. -/
  | write {m w done t todo k slot d} {r : TxRing} (tx : m.tx = some r)
      (next : (t.writes r.size)[k]? = some (slot, d)) :
      TxStep permits (.writing w done t todo k, m)
        (.writing w done t todo (k + 1), m.pokeTx slot d)
  /-- All of its descriptors are written. -/
  | written {m w done t todo} :
      TxStep permits (.writing w done t todo t.packet.fragmentCount, m)
        (.walking w (done ++ [t]) todo, m)
  /-- The ring takes the walk over. -/
  | adopt {m w done} {r : TxRing} (tx : m.tx = some r) :
      TxStep permits (.walking w done [], m) (.walked w, m.setTx (r.afterWalk w))
  /-- The doorbell is rung. -/
  | ring {m w} :
      TxStep permits (.walked w, m)
        (.idle, m.poke .txProducer w.producer.toUInt32)
  /-- There is nothing to ring for. -/
  | quiet {m w} (none : Walk.written w = 0) : TxStep permits (.walked w, m) (.idle, m)
  /-- The adapter's counter is read in order to hand packets back. -/
  | read {m} {r : TxRing} (tx : m.tx = some r) (running : r.phase = .running) :
      TxStep permits (.idle, m)
        (.reclaiming (r.unconsumed (m.adapter.counter .txConsumer)),
          m.peek .txConsumer)
  /-- A reading is counted if it is not believed. -/
  | doubt {x m c} {r : TxRing} (tx : m.tx = some r) :
      TxStep permits (x, m) (x, m.setTx (r.noteReading c))
  /-- A packet that is done is handed back. -/
  | complete {m n p} {r r' : TxRing} (tx : m.tx = some r) (next : r.takeDone? n = some (p, r')) :
      TxStep permits (.reclaiming n, m)
        (.reclaiming n, (m.setTx (r'.settle p)).record (.completed p))
  /-- No more packets are done. -/
  | stop {m n} : TxStep permits (.reclaiming n, m) (.idle, m)
  /-- A cancelled ring is going to be emptied. -/
  | drain {m} {r : TxRing} (tx : m.tx = some r) (cancelled : r.phase = .cancelled) :
      TxStep permits (.idle, m) (.draining, m)
  /-- A packet is handed back, done or not. -/
  | surrender {m p} {r r' : TxRing} (tx : m.tx = some r) (next : r.takeOldest? = some (p, r')) :
      TxStep permits (.draining, m)
        (.draining, (m.setTx (r'.settle p.ignore)).record (.completed p.ignore))
  /-- The ring is empty, and forgets its descriptors. -/
  | abandon {m} {r : TxRing} (tx : m.tx = some r) (empty : r.queue = []) :
      TxStep permits (.draining, m) (.idle, m.setTx r.abandon)

/-- **Every step has at most one event, and that at its end.** -/
theorem TxStep.remembers {permits : Move → Prop} (c c' : TxPoint × Machine)
    (h : TxStep permits c c') : Machine.Remembers c.2 c'.2 := by
  cases h
  case move => exact Machine.remembers_move _ _
  case elsewhere h => exact Or.inl h.moments
  case note | look | announce | read => exact Machine.remembers_record _ _
  case plan | place | mark | collect | survey | written | adopt | quiet | doubt | stop | drain
    | abandon => exact Or.inl rfl
  case accept | align | switchOn | switchOff | write | ring | complete | surrender =>
    exact Or.inr (Machine.moments_record _ _)

/-- A walk that is being carried out is the one that the ring would still make. -/
def Surveyed (c : TxPoint × Machine) : Prop :=
  ∀ w r, c.1.walk? = some w → c.2.tx = some r → r.postingWalk = w

theorem TxStep.surveyed {permits : Move → Prop} (c c' : TxPoint × Machine)
    (h : TxStep permits c c') (surveyed : Surveyed c) : Surveyed c' := by
  intro w q hw hq
  cases h
  case plan => exact surveyed w q hw hq
  case move => exact surveyed w q hw (by rwa [Machine.toScene_move] at hq)
  case elsewhere h => exact surveyed w q hw (h.tx.symm.trans hq)
  case note => exact surveyed w q hw ((Machine.tx_record _ _).symm.trans hq)
  case announce => exact surveyed w q hw ((Machine.tx_record _ _).symm.trans hq)
  case write => exact surveyed w q hw (by rwa [Machine.toScene_pokeTx] at hq)
  case written => exact surveyed w q hw hq
  case accept r p tx free =>
    obtain rfl := Option.some.inj ((Machine.tx_record _ _).symm.trans hq)
    exact surveyed w r hw tx
  case doubt c r tx =>
    obtain rfl := Option.some.inj hq
    have same : (r.noteReading c).postingWalk = r.postingWalk := by
      unfold noteReading
      split <;> rfl
    rw [same]
    exact surveyed w r hw tx
  case survey r tx running =>
    obtain rfl := Option.some.inj (tx.symm.trans hq)
    exact Option.some.inj hw
  case look | place | align | switchOn | switchOff | mark | collect | adopt | ring | quiet | read
    | complete | stop | drain | surrender | abandon => exact absurd hw (Option.some_ne_none _).symm

/-! ## Requests -/

/-- What can happen while a request is under way without being a part of it: a packet is submitted,
the adapter makes moves or changes its plans, and whatever concerns other parts. -/
inductive TxMeanwhile (permits : Move → Prop) : Machine → Machine → Prop
  /-- A packet is submitted. -/
  | submit (m : Machine) (p : Packet) : TxMeanwhile permits m (m.submit p).2
  /-- The adapter has its turn. -/
  | turn (m : Machine) : TxMeanwhile permits m m.turn
  /-- The adapter makes a move. -/
  | move (m : Machine) {mv : Move} (h : permits mv) : TxMeanwhile permits m (m.move mv)
  /-- The adapter changes its plans. -/
  | plan (m : Machine) {agenda : List (List Move)} (h : Machine.Permitted permits agenda) :
      TxMeanwhile permits m { m with agenda := agenda }
  /-- Something happens elsewhere. -/
  | elsewhere {m m' : Machine} (h : TxApart m m') : TxMeanwhile permits m m'
  /-- Something else is entered in the journal. -/
  | note (m : Machine) {e : Event} (h : e.isAside = true) : TxMeanwhile permits m (m.record e)

/-- What happens while packets are handed back, and between requests: the upper layer submits a
packet, it is entered what its request came to, and the adapter makes moves. -/
inductive Sending (permits : Move → Prop) : Machine → Machine → Prop
  /-- A packet is submitted. -/
  | submit (m : Machine) (p : Packet) : Sending permits m (m.submit p).2
  /-- What a request came to is entered. -/
  | reply (m : Machine) (o : Outcome) : Sending permits m (m.record (.replied o))
  /-- The adapter makes a move. -/
  | move (m : Machine) {mv : Move} (h : permits mv) : Sending permits m (m.move mv)

theorem Sending.meanwhile {permits : Move → Prop} {m m' : Machine} (h : Sending permits m m') :
    TxMeanwhile permits m m' := by
  cases h with
  | submit p => exact .submit m p
  | reply => exact .note m rfl
  | move h => exact .move m h

theorem Upper.Abides.meanwhile {permits : Move → Prop} {u : Upper}
    (h : u.Abides (Sending permits)) : u.Abides (TxMeanwhile permits) :=
  h.mono fun _ _ act => .single act.meanwhile

/-- A request to the transmit ring, or something that happens between two of them. -/
inductive TxRequest (permits : Move → Prop) : Machine → Machine → Prop
  /-- The ring is started, or that is refused. -/
  | start (m : Machine) : TxRequest permits m m.startTx.2
  /-- The ring is cancelled. -/
  | cancel (m : Machine) : TxRequest permits m m.cancelTx
  /-- The ring is served. -/
  | advance (m : Machine) {u : Upper} (h : u.Abides (Sending permits)) :
      TxRequest permits m (m.advanceTx u).machine
  /-- Something of the things that may also happen in a callback. -/
  | sending {m m' : Machine} (h : Sending permits m m') : TxRequest permits m m'
  /-- The adapter changes its plans. -/
  | plan (m : Machine) {agenda : List (List Move)} (h : Machine.Permitted permits agenda) :
      TxRequest permits m { m with agenda := agenda }

/-! ## What a run begins with -/

/-- A machine with a transmit ring of the given size and depth that was made just now, which keeps a
complete journal and remembers its moments. -/
structure Machine.NewTx (slots depth : Nat) (m : Machine) : Prop where
  /-- The ring is new. -/
  made : ∃ r, TxRing.create slots depth = .ok r ∧ m.tx = some r
  /-- Every event is kept. -/
  complete : m.journal.detail = .complete
  /-- Nothing has happened yet. -/
  fresh : m.journal.events = #[]
  /-- Every moment is remembered. -/
  moments : m.moments = some []

/-- A machine with a new transmit ring and nothing else. -/
def Machine.withTx (size : RingSize) (depth : Nat) : Machine where
  tx := some { size := size, depth := depth }
  journal := { detail := .complete }
  moments := some []

theorem Machine.newTx_withTx (size : RingSize) (depth : Nat) :
    (Machine.withTx size depth).NewTx size.slots depth := by
  refine ⟨⟨{ size := size, depth := depth }, ?_, rfl⟩, rfl, rfl, rfl⟩
  rw [TxRing.create, RingSize.ofNat?_slots]

end DescriptorRings
