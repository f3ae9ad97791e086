import DescriptorRings.Config
import DescriptorRings.Packet
import DescriptorRings.Phase

/-!
# The transmit ring

A packet goes through three stages.

1. It is *taken in*: submission checks it and leaves it in the intake.
2. It is *waiting*: serving the ring moves the intake to the end of the waiting packets.
3. It is *passed*: the posting walk has written its descriptors, or has skipped it because it is
   ignored.  A passed packet completes once the adapter has consumed its last descriptor; a skipped
   one has nothing to wait for but its turn.

The three stages are three fields, and the order of submission reads `passed`, then `waiting`, then
`intake`.  A packet is posted whole or not at all, and the walk stops at the first packet that does
not fit, so that completions keep the order of submissions.  One deque for the packets past the
intake, with an index that tells the passed ones from the others, comes to the same
(`Proofs/Transmit/Deque`).

## When a packet is done

The adapter reports how far it has come by a counter.  A packet is done when fewer descriptors are
unconsumed than lie from its last one up to the producer.  Both numbers are distances on the ring;
they can only be compared because a reading is believed only if it lies in the window of the
descriptors in flight.  That check uses the whole counter, since a reading that is a turn of the
ring ahead has the same slot as an honest one.
-/

namespace DescriptorRings

/-! ## The parts of the ring -/

/-- A packet that the posting walk has passed. -/
structure TxEntry where
  /-- The packet. -/
  packet : Packet
  /-- The counter of its last descriptor, unless it was skipped. -/
  last : Option Counter
  deriving DecidableEq, Repr

namespace TxEntry

/-- Marks the packet of an entry ignored. -/
def ignore (e : TxEntry) : TxEntry := { e with packet := e.packet.ignore }

end TxEntry

/-- A packet that is posted, and where its descriptors begin. -/
structure TxPost where
  /-- The packet. -/
  packet : Packet
  /-- The counter of its first descriptor. -/
  first : Counter
  deriving DecidableEq, Repr

namespace TxPost

/-- The counter of the last descriptor of a packet. -/
def last (t : TxPost) : Counter := t.first.advance t.packet.fragmentCount - 1

/-- The descriptors of a packet, each with its slot. -/
def writes (t : TxPost) (size : RingSize) : List (Nat × TxDescriptor) :=
  t.packet.descriptors.mapIdx fun i d => ((t.first.advance i).slot size.slots, d)

@[simp] theorem length_writes (t : TxPost) (size : RingSize) :
    (t.writes size).length = t.packet.fragmentCount := by
  simp [writes]

end TxPost

/-- What a transmit ring has counted since it was made.

The counts are numbers.  A device driver keeps them in words of 64 bits that start again at zero: such a
word is the number modulo `2 ^ 64`, and no decision depends on it. -/
structure TxStats where
  /-- Packets written into descriptors. -/
  postedPackets : Nat := 0
  /-- Descriptors written. -/
  postedDescriptors : Nat := 0
  /-- Packets completed after transmission. -/
  completed : Nat := 0
  /-- Packets completed without transmission. -/
  ignored : Nat := 0
  /-- Posting walks that stopped for lack of slots. -/
  backpressure : Nat := 0
  /-- Readings of the adapter's counter that could not be believed. -/
  badConsumer : Nat := 0
  deriving DecidableEq, Repr

/-- A transmit ring. -/
structure TxRing where
  /-- How many slots there are. -/
  size : RingSize
  /-- Most packets that may be outstanding. -/
  depth : Nat
  /-- Packets taken in and not looked at since. -/
  intake : Array Packet := #[]
  /-- Packets submitted and not completed. -/
  outstanding : Nat := 0
  /-- Packets that the posting walk has passed, oldest first. -/
  passed : List TxEntry := []
  /-- Packets that the posting walk has not reached, oldest first. -/
  waiting : List Packet := []
  /-- The next descriptor to write. -/
  producer : Counter := 0
  /-- The oldest descriptor not given back. -/
  reclaim : Counter := 0
  /-- What serving the ring means. -/
  phase : Phase := .stopped
  /-- What was counted. -/
  stats : TxStats := {}
  deriving Repr

namespace TxRing

/-- A ring of an admitted size. -/
def create (slots depth : Nat) : Except Refusal TxRing :=
  match RingSize.ofNat? slots with
  | some size => .ok { size := size, depth := depth }
  | none => .error Config.Flaw.txRingSize.refusal

/-! ## Questions -/

/-- Most descriptors that can be in flight at once. -/
def capacity (r : TxRing) : Nat := r.size.capacity

/-- Descriptors posted and not given back. -/
def inFlight (r : TxRing) : Nat := r.producer.distance r.reclaim r.size.slots

/-- Descriptors that can be posted. -/
def freeSlots (r : TxRing) : Nat := r.capacity - r.inFlight

/-- Packets submitted and not reached by the posting walk. -/
def pending (r : TxRing) : Nat := r.waiting.length + r.intake.size

/-- Packets past the intake, in the order of their submission. -/
def queue (r : TxRing) : List Packet := r.passed.map TxEntry.packet ++ r.waiting

/-- All packets not completed, in the order of their submission. -/
def packets (r : TxRing) : List Packet := r.queue ++ r.intake.toList

/-- Whether the ring was cancelled since its last start. -/
def isCancelled (r : TxRing) : Bool := r.phase == .cancelled

/-! ## Submission -/

/-- Why a packet is not taken in, if it is not. -/
def refusal? (r : TxRing) (p : Packet) : Option Refusal :=
  let count := p.fragmentCount
  if count = 0 then some .emptyPacket
  else if r.capacity < count then some (.packetTooLarge count r.capacity)
  else if r.depth ≤ r.outstanding then some .ringFull
  else none

/-- Takes a packet in. -/
def accept (r : TxRing) (p : Packet) : TxRing :=
  { r with intake := r.intake.push p, outstanding := r.outstanding + 1 }

/-- Moves the intake to the end of the waiting packets. -/
def collect (r : TxRing) : TxRing :=
  { r with waiting := r.waiting ++ r.intake.toList, intake := #[] }

@[simp] theorem packets_accept (r : TxRing) (p : Packet) :
    (r.accept p).packets = r.packets ++ [p] := by
  simp [packets, queue, accept]

@[simp] theorem packets_collect (r : TxRing) : r.collect.packets = r.packets := by
  simp [packets, queue, collect]

/-! ## Starting and cancelling -/

/-- Begins to run at the adapter's counter. -/
def begin (r : TxRing) (c : Counter) : TxRing :=
  { r with producer := c, reclaim := c, phase := .running }

@[simp] theorem inFlight_begin (r : TxRing) (c : Counter) : (r.begin c).inFlight = 0 :=
  c.distance_self _

/-- Ends the run.  Every packet past the intake is marked ignored. -/
def cancel (r : TxRing) : TxRing :=
  { r with
    phase := .cancelled
    passed := r.passed.map TxEntry.ignore
    waiting := r.waiting.map Packet.ignore }

theorem queue_cancel (r : TxRing) : r.cancel.queue = r.queue.map Packet.ignore := by
  simp [queue, cancel, TxEntry.ignore, Function.comp_def]

/-! ## The posting walk -/

/-- What a posting walk did. -/
structure Walk where
  /-- The packets passed, in order. -/
  passed : List TxEntry
  /-- The packets not reached. -/
  waiting : List Packet
  /-- Those of the packets passed that were posted. -/
  posts : List TxPost
  /-- The counter after the last descriptor. -/
  producer : Counter
  /-- The packet that stopped the walk: the descriptors that it needed, and those that were free. -/
  stopped : Option (Nat × Nat)
  deriving Repr

namespace Walk

/-- How many descriptors were written. -/
def written (w : Walk) : Nat := w.posts.foldr (fun t n => t.packet.fragmentCount + n) 0

/-- A walk over no packets. -/
def done (producer : Counter) : Walk :=
  { passed := [], waiting := [], posts := [], producer := producer, stopped := none }

/-- A walk that goes no further than its start. -/
def halted (waiting : List Packet) (producer : Counter) (needed free : Nat) : Walk :=
  { done producer with waiting := waiting, stopped := some (needed, free) }

/-- A walk that first skipped a packet. -/
def skipping (p : Packet) (w : Walk) : Walk := { w with passed := ⟨p, none⟩ :: w.passed }

/-- A walk that first posted a packet. -/
def posting (t : TxPost) (w : Walk) : Walk :=
  { w with passed := ⟨t.packet, some t.last⟩ :: w.passed, posts := t :: w.posts }

end Walk

/-- Posts waiting packets from a counter on, until one does not fit. -/
def walk (size : RingSize) (reclaim : Counter) : List Packet → Counter → Walk
  | [], producer => .done producer
  | p :: rest, producer =>
    if p.ignored then .skipping p (walk size reclaim rest producer)
    else
      let needed := p.fragmentCount
      let free := size.capacity - producer.distance reclaim size.slots
      if free < needed then .halted (p :: rest) producer needed free
      else .posting ⟨p, producer⟩ (walk size reclaim rest (producer.advance needed))

/-- The walk over the waiting packets of a ring. -/
def postingWalk (r : TxRing) : Walk := walk r.size r.reclaim r.waiting r.producer

/-- The ring after its posting walk. -/
def afterWalk (r : TxRing) (w : Walk) : TxRing :=
  { r with
    passed := r.passed ++ w.passed
    waiting := w.waiting
    producer := w.producer
    stats :=
      { r.stats with
        postedPackets := r.stats.postedPackets + w.posts.length
        postedDescriptors := r.stats.postedDescriptors + w.written
        backpressure := r.stats.backpressure + (if w.stopped.isSome then 1 else 0) } }

/-- A walk loses no packet and keeps their order. -/
theorem packets_walk (size : RingSize) (reclaim : Counter) (ps : List Packet) (producer : Counter) :
    (walk size reclaim ps producer).passed.map TxEntry.packet
      ++ (walk size reclaim ps producer).waiting = ps := by
  induction ps generalizing producer with
  | nil => rfl
  | cons p rest ih =>
    unfold walk
    split
    · simp [Walk.skipping, ih]
    · dsimp only
      split
      · rfl
      · simp [Walk.posting, ih]

@[simp] theorem packets_afterWalk (r : TxRing) :
    (r.afterWalk r.postingWalk).packets = r.packets := by
  have := packets_walk r.size r.reclaim r.waiting r.producer
  simp only [packets, queue, afterWalk, postingWalk, List.map_append, List.append_assoc] at this ⊢
  rw [← List.append_assoc _ _ r.intake.toList, this]

/-! ## Completion -/

/-- Whether a reading of the adapter's counter lies in the window of descriptors in flight. -/
def believes (r : TxRing) (consumer : Counter) : Bool :=
  decide (consumer.past r.reclaim ≤ r.inFlight)

/-- The descriptors that the adapter has not consumed.  A reading that is not believed counts as no
progress. -/
def unconsumed (r : TxRing) (consumer : Counter) : Nat :=
  if r.believes consumer then r.producer.distance consumer r.size.slots else r.inFlight

/-- Counts a reading that is not believed. -/
def noteReading (r : TxRing) (consumer : Counter) : TxRing :=
  if r.believes consumer then r
  else { r with stats := { r.stats with badConsumer := r.stats.badConsumer + 1 } }

/-- Takes out the oldest passed packet if it is done. -/
def takeDone? (r : TxRing) (unconsumed : Nat) : Option (Packet × TxRing) :=
  match r.passed with
  | [] => none
  | ⟨p, none⟩ :: rest => some (p, { r with passed := rest })
  | ⟨p, some last⟩ :: rest =>
    if r.producer.distance last r.size.slots ≤ unconsumed then none
    else some (p, { r with passed := rest, reclaim := last.advance 1 })

/-- Takes out the oldest packet past the intake, whatever the adapter has done. -/
def takeOldest? (r : TxRing) : Option (Packet × TxRing) :=
  match r.passed, r.waiting with
  | e :: rest, _ => some (e.packet, { r with passed := rest })
  | [], p :: rest => some (p, { r with waiting := rest })
  | [], [] => none

/-- Counts a packet as completed. -/
def settle (r : TxRing) (p : Packet) : TxRing :=
  { r with
    outstanding := r.outstanding - 1
    stats :=
      if p.ignored then { r.stats with ignored := r.stats.ignored + 1 }
      else { r.stats with completed := r.stats.completed + 1 } }

/-- Forgets the descriptors in flight. -/
def abandon (r : TxRing) : TxRing := { r with reclaim := r.producer }

@[simp] theorem packets_settle (r : TxRing) (p : Packet) : (r.settle p).packets = r.packets := rfl

@[simp] theorem packets_noteReading (r : TxRing) (c : Counter) :
    (r.noteReading c).packets = r.packets := by
  unfold noteReading
  split <;> rfl

theorem packets_of_takeDone? {r r' : TxRing} {n : Nat} {p : Packet}
    (h : r.takeDone? n = some (p, r')) : r.packets = p :: r'.packets := by
  unfold takeDone? at h
  split at h
  · simp at h
  · obtain ⟨rfl, rfl⟩ := by simpa using h
    simp [packets, queue, *]
  · split at h
    · simp at h
    · obtain ⟨rfl, rfl⟩ := by simpa using h
      simp [packets, queue, *]

theorem packets_of_takeOldest? {r r' : TxRing} {p : Packet}
    (h : r.takeOldest? = some (p, r')) : r.packets = p :: r'.packets := by
  unfold takeOldest? at h
  split at h
  · obtain ⟨rfl, rfl⟩ := by simpa using h
    simp [packets, queue, *]
  · obtain ⟨rfl, rfl⟩ := by simpa using h
    simp [packets, queue, *]
  · simp at h

end TxRing

end DescriptorRings
