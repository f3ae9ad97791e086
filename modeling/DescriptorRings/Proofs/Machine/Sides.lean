import DescriptorRings.Proofs.Machine.Moments
import Mathlib.Data.List.Forall2

/-!
# The two sides of the machine

The rings of an engine share one adapter, one register file and one upper layer, and yet neither
should notice the other.  What a direction works on is its *side* of the machine: its ring, its
three registers, its table of descriptors and its cause in the status register.  The memory, the
pools and what the upper layer holds are on the side of reception.  The other parts of the machine
are looked at by both and changed by neither.

A side is described by what is left when it is taken away.  `Scene.without` clears everything that
is on the side of a direction, and the events, which both directions enter in one journal.  So a
direction works on its own side only if what is left without its side stays as it was, and what it
does depends on its own side only if it is the same in two machines that agree without the *other*
side.

## In step

Both are proved at once, by letting a direction work in two machines side by side (`InStep`).  They
agree on its side at every point of the program, so it takes the same branches, comes to the same
results and enters the same events in both, while on the other side each of them stays as it began.
Every primitive of the machine keeps that, and whatever is put together from them does.
-/

namespace DescriptorRings

open List

/-! ## What belongs to a direction -/

namespace Direction

/-- The opposite direction. -/
def other : Direction → Direction
  | .tx => .rx
  | .rx => .tx

/-- Whether a register belongs to a direction. -/
def governs : Direction → Register → Bool
  | .tx, .txProducer | .tx, .txConsumer | .tx, .txDmaControl => true
  | .rx, .rxProducer | .rx, .rxConsumer | .rx, .rxDmaControl => true
  | _, _ => false

/-- Whether a move of the adapter is one for a direction. -/
def makes (d : Direction) : Move → Bool
  | .assign r _ => d.governs r
  | .raise causes => causes &&& ~~~d.mask == 0
  | .consume _ | .transmit _ => d == .tx
  | .receive _ | .fill _ => d == .rx

end Direction

namespace Adapter

/-- An adapter without what belongs to a direction. -/
def without (a : Adapter) : Direction → Adapter
  | .tx =>
    { a with
      registers :=
        { a.registers with
          txProducer := 0
          txConsumer := 0
          txDmaControl := 0
          irqStatus := a.registers.irqStatus &&& ~~~Direction.tx.mask }
      txTable := {} }
  | .rx =>
    { a with
      registers :=
        { a.registers with
          rxProducer := 0
          rxConsumer := 0
          rxDmaControl := 0
          irqStatus := a.registers.irqStatus &&& ~~~Direction.rx.mask }
      rxTable := {} }

end Adapter

namespace Scene

/-- A scene without its events. -/
def quiet (s : Scene) : Scene := { s with journal := { s.journal with events := #[] } }

/-- A scene without its events and without the side of a direction. -/
def without (s : Scene) : Direction → Scene
  | .tx => { s.quiet with adapter := s.adapter.without .tx, tx := none }
  | .rx =>
    { s.quiet with
      adapter := s.adapter.without .rx
      rx := none
      memory := {}
      pools := #[]
      frames := #[]
      handles := #[] }

@[simp] theorem adapter_without (s : Scene) (d : Direction) :
    (s.without d).adapter = s.adapter.without d := by
  cases d <;> rfl

@[simp] theorem journal_without (s : Scene) (d : Direction) :
    (s.without d).journal = { s.journal with events := #[] } := by
  cases d <;> rfl

/-- An event is on neither side. -/
@[simp] theorem without_add (s : Scene) (e : Event) (d : Direction) :
    ({ s with journal := s.journal.add e } : Scene).without d = s.without d := by
  have same : ({ s.journal.add e with events := #[] } : Journal) =
      { s.journal with events := #[] } := by
    unfold Journal.add
    split <;> rfl
  cases d <;> simp only [without, quiet, same]

end Scene

/-! ## The two sides are all there is -/

/-- A word is known from what it is without one cause and without the other. -/
theorem eq_of_without_causes {v w : UInt32}
    (tx : v &&& ~~~Direction.tx.mask = w &&& ~~~Direction.tx.mask)
    (rx : v &&& ~~~Direction.rx.mask = w &&& ~~~Direction.rx.mask) : v = w := by
  have whole (x : UInt32) :
      (x &&& ~~~Direction.tx.mask) ||| (x &&& ~~~Direction.rx.mask) = x := by
    rw [← and_or_distrib]
    exact UInt32.and_neg_one
  rw [← whole v, tx, rx, whole w]

/-- Causes of one direction are left when the other one's cause is taken away. -/
theorem spared_of_without_cause {d : Direction} {causes : UInt32}
    (none : causes &&& ~~~d.mask = 0) : causes &&& ~~~d.other.mask = causes := by
  have whole : causes = causes &&& d.mask := by
    have split : causes &&& (d.mask ||| ~~~d.mask) = causes := by
      rw [UInt32.or_not_self, UInt32.and_neg_one]
    rw [and_or_distrib, none, UInt32.or_zero] at split
    exact split.symm
  have apart : d.mask &&& ~~~d.other.mask = d.mask := by cases d <;> decide
  rw [whole, UInt32.and_assoc, apart]

theorem Adapter.eq_of_without {a b : Adapter} (tx : a.without .tx = b.without .tx)
    (rx : a.without .rx = b.without .rx) : a = b := by
  have status : a.registers.irqStatus = b.registers.irqStatus :=
    eq_of_without_causes (congrArg (fun a => a.registers.irqStatus) tx)
      (congrArg (fun a => a.registers.irqStatus) rx)
  have producer : a.registers.txProducer = b.registers.txProducer :=
    congrArg (fun a => a.registers.txProducer) rx
  have consumer : a.registers.txConsumer = b.registers.txConsumer :=
    congrArg (fun a => a.registers.txConsumer) rx
  have control : a.registers.txDmaControl = b.registers.txDmaControl :=
    congrArg (fun a => a.registers.txDmaControl) rx
  have table : a.txTable = b.txTable := congrArg (fun a => a.txTable) rx
  -- what is taken away with the transmit direction is put back from what is left without the other
  let restored (c : Adapter) (f : RegisterFile) (t : SlotTable TxDescriptor) : Adapter :=
    { c with
      registers :=
        { c.registers with
          txProducer := f.txProducer
          txConsumer := f.txConsumer
          txDmaControl := f.txDmaControl
          irqStatus := f.irqStatus }
      txTable := t }
  calc a = restored (a.without .tx) a.registers a.txTable := rfl
    _ = restored (b.without .tx) b.registers b.txTable := by
      simp only [restored, tx, producer, consumer, control, status, table]
    _ = b := rfl

/-- **Two scenes that agree without either side differ in their events at most.** -/
theorem Scene.quiet_eq_of_without {s t : Scene} (tx : s.without .tx = t.without .tx)
    (rx : s.without .rx = t.without .rx) : s.quiet = t.quiet := by
  have adapter : s.adapter = t.adapter :=
    Adapter.eq_of_without (congrArg Scene.adapter tx) (congrArg Scene.adapter rx)
  have ring : s.tx = t.tx := congrArg (fun s => s.tx) rx
  calc s.quiet = { s.without .tx with adapter := s.adapter, tx := s.tx } := rfl
    _ = { t.without .tx with adapter := t.adapter, tx := t.tx } := by rw [tx, adapter, ring]
    _ = t.quiet := rfl

/-! ## Changes on one side -/

namespace Adapter

variable {d : Direction} {r : Register}

/-- What is read from a register of a direction does not depend on the other one. -/
theorem read_without_other (a : Adapter) (mine : d.governs r = true) :
    (a.without d.other).read r = a.read r := by
  cases d <;> cases r <;> first | rfl | exact absurd mine Bool.false_ne_true

/-- A change of an adapter that is made on the side of a direction. -/
structure WorksOn (d : Direction) (f : Adapter → Adapter) : Prop where
  /-- It does not depend on the other side. -/
  own : ∀ a, (f a).without d.other = f (a.without d.other) := by intro a; rfl
  /-- It leaves the other side as it is. -/
  rest : ∀ a, (f a).without d = a.without d := by intro a; rfl

namespace WorksOn

theorem assign (mine : d.governs r = true) (v : UInt32) : WorksOn d fun a => a.assign r v := by
  constructor <;> intro a <;> cases d <;> cases r <;>
    first | rfl | exact absurd mine Bool.false_ne_true

theorem write (mine : d.governs r = true) (v : UInt32) : WorksOn d fun a => a.write r v := by
  have plain : (fun a : Adapter => a.write r v) = fun a => a.assign r v := by
    cases r <;> first | rfl | (cases d <;> exact absurd mine Bool.false_ne_true)
  rw [plain]
  exact assign mine v

theorem writeTx (slot : Nat) (x : TxDescriptor) : WorksOn .tx fun a => a.writeTx slot x := {}

theorem writeRx (slot : Nat) (address : BusAddress) (capacity : UInt32) :
    WorksOn .rx fun a => a.writeRx slot address capacity := {}

theorem consume (n : Nat) : WorksOn .tx fun a => a.consume n := {}

theorem receive (frame : Reception) : WorksOn .rx fun a => a.receive frame := by
  -- the receiving slot is on the side of reception, so both adapters find the same in it
  have shape (a : Adapter) : a.receive frame =
      { a.assign .rxConsumer ((a.counter .rxConsumer).advance 1).toUInt32 with
        rxTable :=
          (a.rxTable.get? a.receivingSlot).elim a.rxTable fun x =>
            a.rxTable.set a.receivingSlot
              { x with completion := ⟨frame.status, frame.length⟩ } } := by
    have moved : (a.assign .rxConsumer ((a.counter .rxConsumer).advance 1).toUInt32).rxTable =
      a.rxTable := rfl
    unfold Adapter.receive
    dsimp only
    rw [moved]
    cases a.rxTable.get? a.receivingSlot <;> rfl
  constructor <;> intro a <;> simp only [shape] <;> rfl

theorem ite {f g : Adapter → Adapter} (hf : WorksOn d f) (hg : WorksOn d g) {p : Adapter → Bool}
    (same : ∀ a : Adapter, p (a.without d.other) = p a) :
    WorksOn d fun a => if p a then f a else g a := by
  constructor <;> intro a
  · show (if p a then f a else g a).without d.other =
      if p (a.without d.other) then f (a.without d.other) else g (a.without d.other)
    rw [same a]
    split
    · exact hf.own a
    · exact hg.own a
  · show (if p a then f a else g a).without d = a.without d
    split
    · exact hf.rest a
    · exact hg.rest a

/-- A cause of one direction does not stand in the way of the other one's. -/
theorem raise {causes : UInt32} (mine : d.makes (.raise causes) = true) :
    WorksOn d fun a => a.raise causes := by
  have none : causes &&& ~~~d.mask = 0 := by simpa [Direction.makes] using mine
  have distrib (v w : UInt32) : (v ||| causes) &&& w = v &&& w ||| causes &&& w := by
    rw [UInt32.and_comm, and_or_distrib, UInt32.and_comm w, UInt32.and_comm w]
  have status (a : Adapter) (e : Direction) :
      (a.without e).read .irqStatus = a.read .irqStatus &&& ~~~e.mask := by
    cases e <;> rfl
  have assigned (a : Adapter) (v : UInt32) (e : Direction) :
      (a.assign .irqStatus v).without e = (a.without e).assign .irqStatus (v &&& ~~~e.mask) := by
    cases e <;> rfl
  constructor <;> intro a <;> simp only [Adapter.raise, assigned, distrib, status]
  · rw [spared_of_without_cause none]
  · rw [none, UInt32.or_zero]
    cases d <;> rfl

/-- **Every move that the adapter makes for a direction is made on its side.** -/
theorem move {mv : Move} (mine : d.makes mv = true) : WorksOn d fun a => a.move mv := by
  have tx (h : (d == Direction.tx) = true) : d = .tx := by simpa using h
  have rx (h : (d == Direction.rx) = true) : d = .rx := by simpa using h
  cases mv with
  | assign r v => exact assign mine v
  | raise causes => exact raise mine
  | consume n =>
    obtain rfl := tx mine
    exact consume n
  | transmit n =>
    obtain rfl := tx mine
    exact {}
  | receive frame =>
    obtain rfl := rx mine
    exact receive frame
  | fill frame =>
    obtain rfl := rx mine
    exact (receive frame).ite {} fun _ => rfl

end WorksOn

end Adapter

namespace Scene

variable {d : Direction}

/-- A change of a scene that is made on the side of a direction, and enters no event.  A change that
replaces one of the parts on the side is one by definition. -/
structure WorksOn (d : Direction) (f : Scene → Scene) : Prop where
  /-- It does not depend on the other side. -/
  own : ∀ s, (f s).without d.other = f (s.without d.other) := by intro s; rfl
  /-- It leaves the other side as it is. -/
  rest : ∀ s, (f s).without d = s.without d := by intro s; rfl
  /-- It enters no event. -/
  journal : ∀ s, (f s).journal = s.journal := by intro s; rfl

namespace WorksOn

/-- A change of the adapter. -/
theorem adapter {f : Adapter → Adapter} (h : Adapter.WorksOn d f) :
    WorksOn d fun s => { s with adapter := f s.adapter } := by
  have apart (s : Scene) (a : Adapter) (e : Direction) :
      ({ s with adapter := a } : Scene).without e =
        { s.without e with adapter := a.without e } := by
    cases e <;> rfl
  constructor
  · intro s
    rw [apart, h.own, adapter_without]
  · intro s
    rw [apart, h.rest, ← adapter_without]
  · intro s
    rfl

/-- A change of the memory that goes by the adapter. -/
theorem memory {f : Adapter → Memory → Memory}
    (same : ∀ a mem, f (a.without .tx) mem = f a mem) :
    WorksOn .rx fun s => { s with memory := f s.adapter s.memory } := by
  refine { own := ?_ }
  intro s
  show { s.without .tx with memory := f s.adapter s.memory } =
    { s.without .tx with memory := f (s.adapter.without .tx) s.memory }
  rw [same]

/-- **What a move does to the memory is on the side of its direction**: the frames of the line are
stored, and nothing else is. -/
theorem store {mv : Move} (mine : d.makes mv = true) :
    WorksOn d fun s => { s with memory := s.adapter.store mv s.memory } := by
  cases d with
  | rx => exact memory (f := fun a mem => a.store mv mem) fun a mem => by cases mv <;> rfl
  | tx =>
    have none : (fun s : Scene => { s with memory := s.adapter.store mv s.memory }) = id := by
      cases mv <;> first | rfl | exact absurd mine Bool.false_ne_true
    rw [none]
    exact {}

end WorksOn

end Scene

/-! ## In step -/

/-- Two machines in which a direction works side by side, since it began in `n` and in `n'`. -/
structure InStep (d : Direction) (n n' m m' : Machine) : Prop where
  /-- Its own side is the same in both. -/
  own : m'.toScene.without d.other = m.toScene.without d.other
  /-- In the first machine the other side is as it was. -/
  rest : m.toScene.without d = n.toScene.without d
  /-- So it is in the second machine. -/
  rest' : m'.toScene.without d = n'.toScene.without d
  /-- The same events were entered in both. -/
  entered : ∃ es, m.journal.events.toList = n.journal.events.toList ++ es ∧
    m'.journal.events.toList = n'.journal.events.toList ++ es
  /-- The adapters plan the same. -/
  agenda : m'.agenda = m.agenda
  /-- They plan moves for this direction only. -/
  planned : Machine.Permitted (fun mv => d.makes mv = true) m.agenda

/-- What a request comes to in either machine: the same answer, and machines in step. -/
structure Matches {α : Type} (d : Direction) (n n' : Machine) (x x' : α × Machine) : Prop where
  /-- The answers are the same. -/
  answer : x'.1 = x.1
  /-- The machines are in step. -/
  machines : InStep d n n' x.2 x'.2

theorem Matches.split {α : Type} {d : Direction} {n n' : Machine} {x x' : α × Machine}
    (h : Matches d n n' x x') : ∃ a k k', x = (a, k) ∧ x' = (a, k') ∧ InStep d n n' k k' :=
  ⟨x.1, x.2, x'.2, rfl, Prod.ext h.answer rfl, h.machines⟩

/-- Two changes that keep machines in step. -/
def KeepInStep (d : Direction) (n n' : Machine) (f f' : Machine → Machine) : Prop :=
  ∀ k k', InStep d n n' k k' → InStep d n n' (f k) (f' k')

namespace InStep

variable {d : Direction} {n n' m m' : Machine}

/-- Two machines that agree on the side of a direction are given the same plans for it. -/
theorem begin (same : m'.toScene.without d.other = m.toScene.without d.other)
    {plan : List (List Move)} (planned : Machine.Permitted (fun mv => d.makes mv = true) plan) :
    InStep d m m' { m with agenda := plan } { m' with agenda := plan } :=
  ⟨same, rfl, rfl, ⟨[], (append_nil _).symm, (append_nil _).symm⟩, rfl, planned⟩

/-! ### Changes -/

theorem adjust (h : InStep d n n' m m') {f : Scene → Scene} (works : Scene.WorksOn d f) :
    InStep d n n' { m with toScene := f m.toScene } { m' with toScene := f m'.toScene } := by
  refine ⟨?_, (works.rest _).trans h.rest, (works.rest _).trans h.rest', ?_, h.agenda, h.planned⟩
  · rw [works.own, works.own, h.own]
  · rw [works.journal, works.journal]
    exact h.entered

theorem modifyTx (h : InStep .tx n n' m m') (f : TxRing → TxRing) :
    InStep .tx n n' (m.modifyTx f) (m'.modifyTx f) :=
  h.adjust (f := fun s => { s with tx := s.tx.map f }) {}

theorem modifyRx (h : InStep .rx n n' m m') (f : RxRing → RxRing) :
    InStep .rx n n' (m.modifyRx f) (m'.modifyRx f) :=
  h.adjust (f := fun s => { s with rx := s.rx.map f }) {}

/-! ### Events -/

theorem journal (h : InStep d n n' m m') :
    m'.journal.detail = m.journal.detail ∧ m'.journal.level = m.journal.level := by
  have same := congrArg Scene.journal h.own
  rw [Scene.journal_without, Scene.journal_without] at same
  exact ⟨congrArg (fun j => j.detail) same, congrArg (fun j => j.level) same⟩

/-- **Both enter the same event**, or neither enters it. -/
theorem record (h : InStep d n n' m m') (e : Event) :
    InStep d n n' (m.record e) (m'.record e) := by
  have grows (j : Journal) : (j.add e).events.toList =
      j.events.toList ++ if j.detail.keeps e then [e] else [] := by
    unfold Journal.add
    split
    · exact Array.toList_push
    · exact (append_nil _).symm
  obtain ⟨es, first, second⟩ := h.entered
  refine ⟨?_, ?_, ?_, ⟨es ++ if m.journal.detail.keeps e then [e] else [], ?_, ?_⟩, ?_, ?_⟩
  · simp only [Machine.toScene_record, Scene.without_add, h.own]
  · simp only [Machine.toScene_record, Scene.without_add, h.rest]
  · simp only [Machine.toScene_record, Scene.without_add, h.rest']
  · rw [Machine.journal_record, grows, first, append_assoc]
  · rw [Machine.journal_record, grows, second, append_assoc, h.journal.1]
  · simp only [Machine.agenda_record, h.agenda]
  · simp only [Machine.agenda_record, h.planned]

theorem give (h : InStep d n n' m m') (x : Notice) : InStep d n n' (m.give x) (m'.give x) := by
  have same : m'.journal.gives x.level = m.journal.gives x.level := by
    unfold Journal.gives
    rw [h.journal.2]
  unfold Machine.give
  rw [same]
  split
  · exact h.record _
  · exact h

theorem giveIf (h : InStep d n n' m m') (condition : Bool) (x : Notice) :
    InStep d n n' (m.giveIf condition x) (m'.giveIf condition x) := by
  unfold Machine.giveIf
  split
  · exact h.give x
  · exact h

/-! ### The adapter's turn -/

/-- Both adapters make a move that they have planned. -/
theorem move (h : InStep d n n' m m') {mv : Move} (mine : d.makes mv = true) :
    InStep d n n' (m.move mv) (m'.move mv) :=
  ((h.adjust (.store mine)).adjust (.adapter (.move mine))).record (.moved mv)

theorem turn (h : InStep d n n' m m') : InStep d n n' m.turn m'.turn := by
  have moves (ms : List Move) (mine : ∀ mv ∈ ms, d.makes mv = true) {k k' : Machine}
      (hk : InStep d n n' k k') :
      InStep d n n' (ms.foldl Machine.move k) (ms.foldl Machine.move k') := by
    induction ms generalizing k k' with
    | nil => exact hk
    | cons mv ms ih =>
      exact ih (fun mv' h' => mine mv' (mem_cons_of_mem _ h')) (hk.move (mine mv mem_cons_self))
  have planned := h.planned
  unfold Machine.turn
  rw [h.agenda]
  cases plan : m.agenda with
  | nil => exact h
  | cons ms later =>
    rw [plan] at planned
    exact moves ms (planned ms mem_cons_self)
      ⟨h.own, h.rest, h.rest', h.entered, rfl, fun ms' h' => planned ms' (mem_cons_of_mem _ h')⟩

/-! ### Accesses to the adapter -/

theorem adapter (h : InStep d n n' m m') :
    m'.adapter.without d.other = m.adapter.without d.other := by
  have same := congrArg Scene.adapter h.own
  rwa [Scene.adapter_without, Scene.adapter_without] at same

theorem access (h : InStep d n n' m m') {f : Adapter → Adapter} (works : Adapter.WorksOn d f)
    (e : Event) :
    InStep d n n' (({ m.turn with adapter := f m.turn.adapter } : Machine).record e)
      (({ m'.turn with adapter := f m'.turn.adapter } : Machine).record e) :=
  (h.turn.adjust (.adapter works)).record e

/-- **Both read the same in a register of the direction.** -/
theorem read (h : InStep d n n' m m') {r : Register} (mine : d.governs r = true) :
    Matches d n n' (m.read r) (m'.read r) := by
  have same : m'.turn.adapter.read r = m.turn.adapter.read r := by
    rw [← Adapter.read_without_other _ mine, h.turn.adapter, Adapter.read_without_other _ mine]
  unfold Machine.read
  dsimp only
  rw [same]
  exact ⟨rfl, h.turn.record _⟩

theorem readCounter (h : InStep d n n' m m') {r : Register} (mine : d.governs r = true) :
    Matches d n n' (m.readCounter r) (m'.readCounter r) := by
  obtain ⟨answer, machines⟩ := h.read mine
  exact ⟨congrArg UInt32.toUInt16 answer, machines⟩

theorem write (h : InStep d n n' m m') {r : Register} (mine : d.governs r = true) (v : UInt32) :
    InStep d n n' (m.write r v) (m'.write r v) :=
  h.access (.write mine v) _

theorem writeTx (h : InStep .tx n n' m m') (slot : Nat) (x : TxDescriptor) :
    InStep .tx n n' (m.writeTx slot x) (m'.writeTx slot x) :=
  h.access (.writeTx slot x) _

theorem writeRx (h : InStep .rx n n' m m') (slot : Nat) (address : BusAddress)
    (capacity : UInt32) :
    InStep .rx n n' (m.writeRx slot address capacity) (m'.writeRx slot address capacity) :=
  h.access (.writeRx slot address capacity) _

/-! ### Repetition -/

/-- What happens for each member of a list happens for all of them. -/
theorem foldl {α : Type} {f : Machine → α → Machine}
    (each : ∀ a, KeepInStep d n n' (fun k => f k a) fun k => f k a) (as : List α)
    (h : InStep d n n' m m') : InStep d n n' (as.foldl f m) (as.foldl f m') := by
  induction as generalizing m m' with
  | nil => exact h
  | cons a as ih => exact ih (each a m m' h)

end InStep

/-! ## Requests in whose course the upper layer is called -/

/-- Two upper layers that are going to do the same. -/
structure UpperInStep (d : Direction) (n n' : Machine) (u u' : Upper) : Prop where
  /-- The frames to come are treated in the same way. -/
  disposal : u'.disposal = u.disposal
  /-- There have been as many frames. -/
  frames : u'.frames = u.frames
  /-- The replies to come keep machines in step. -/
  replies : Forall₂ (KeepInStep d n n') u.replies u'.replies

/-- Two requests that work side by side. -/
structure ServedInStep (d : Direction) (n n' : Machine) (s s' : Served) : Prop where
  /-- They have counted the same. -/
  count : s'.count = s.count
  /-- The upper layers are going to do the same. -/
  upper : UpperInStep d n n' s.upper s'.upper
  /-- The machines are in step. -/
  machines : InStep d n n' s.machine s'.machine

namespace ServedInStep

variable {d : Direction} {n n' : Machine} {s s' : Served}

theorem start {u u' : Upper} {m m' : Machine} (upper : UpperInStep d n n' u u')
    (h : InStep d n n' m m') : ServedInStep d n n' (.start u m) (.start u' m') :=
  ⟨rfl, upper, h⟩

/-- The machine of a request changes in the course of it. -/
theorem goOn (h : ServedInStep d n n' s s') {k k' : Machine} (machines : InStep d n n' k k') :
    ServedInStep d n n' { s with machine := k } { s' with machine := k' } :=
  ⟨h.count, h.upper, machines⟩

theorem onMachine (h : ServedInStep d n n' s s') {f f' : Machine → Machine}
    (keep : KeepInStep d n n' f f') : ServedInStep d n n' (s.onMachine f) (s'.onMachine f') :=
  h.goOn (keep _ _ h.machines)

/-- **The upper layer replies in both machines.** -/
theorem reply (h : ServedInStep d n n' s s') : ServedInStep d n n' s.reply s'.reply := by
  have replies := h.upper.replies
  unfold Served.reply
  cases first : s.upper.replies with
  | nil =>
    rw [first, forall₂_nil_left_iff] at replies
    rw [replies]
    exact h
  | cons r later =>
    rw [first] at replies
    obtain ⟨r', later', keep, rest, second⟩ := forall₂_cons_left_iff.mp replies
    rw [second]
    exact ⟨h.count, ⟨h.upper.disposal, h.upper.frames, rest⟩, keep _ _ h.machines⟩

end ServedInStep

end DescriptorRings
