import DescriptorRings.Proofs.Receive.Arrivals
import DescriptorRings.Proofs.Receive.Course

/-!
# Frames on their way to the upper layer

While the direction is on, each frame that has arrived is in one of three places.  It waits in its
slot, between the counter of the ring and that of the adapter; or its completion is being taken in;
or it is done with, and then it was shown, unless it is no frame to be shown.

`RxFlow` says of the first two that the frame is still there, with the completion word and the bytes
that the adapter left behind.  That is a statement about slots and about buffers.  A slot of the
window is not written by software before it was passed, and not by the adapter before the window has
come round to it again; a buffer in the window, or in the hands of the driver, is not written by the
adapter unless it is the one that the adapter fills next, which is behind all those that wait.

`RxStep.flows` goes through the steps: an arrival joins those that wait, a slot that is passed takes
the first of them, and a completion that was read is shown or is of no further interest.
-/

namespace DescriptorRings

open List

/-! ## Where an arrival is -/

/-- An arrival is where it came in: the slot names its buffer and has its completion word, and the
buffer has its bytes. -/
structure Arrival.Lies (arrival : Arrival) (hw : Hardware) (slot : Nat) : Prop where
  /-- The descriptor in the slot. -/
  described : ∃ d, hw.adapter.rxTable.get? slot = some d ∧ d.address = arrival.address ∧
    d.completion = arrival.completion
  /-- The bytes in the buffer. -/
  stored : hw.memory.load arrival.address = arrival.memory.load arrival.address

/-- The arrivals that are being taken in, of which there is one at most. -/
def Taking.Keeps (hw : Hardware) (r : RxRing) (p : BufferPool) (hand : List Arrival) :
    Taking → Prop
  | .nothing | .shown _ => hand = []
  | .passed slot b => ∃ arrival, hand = [arrival] ∧ arrival.Lies hw slot ∧
      arrival.address = p.base b ∧ b.index < p.capacity ∧ b ∉ r.held ∧ r.bufferAt? slot = none
  | .read b c => ∃ arrival, hand = [arrival] ∧ arrival.completion = c ∧
      hw.memory.load arrival.address = arrival.memory.load arrival.address ∧
      arrival.address = p.base b ∧ b.index < p.capacity ∧ b ∉ r.held

/-- The arrivals that are on their way: one may be in hand, the others wait. -/
structure RxFlow (t : Taking) (hw : Hardware) (r : RxRing) (p : BufferPool)
    (hand waiting : List Arrival) : Prop where
  /-- The direction is on. -/
  on : hw.adapter.on .rx = true
  /-- There are as many waiting as the adapter is ahead of the ring. -/
  length : waiting.length = (hw.adapter.counter .rxConsumer).past r.consumer
  /-- They wait in their slots, in order. -/
  lies : ∀ (k : Nat) (arrival : Arrival), waiting[k]? = some arrival →
    arrival.Lies hw ((r.consumer.advance k).slot r.size.slots)
  /-- One may be taken in. -/
  taking : t.Keeps hw r p hand

/-! ## What the guard knows of an arrival -/

section

variable {T : RxTerms} {x : RxStage} {g : Hands} {m : Machine} {r r' : RxRing}
  {p p' : BufferPool} {bs : List BufferId} {hw hw' : Hardware} {t : Taking}
  {hand waiting : List Arrival}

theorem RxGuard.index_lt (h : RxGuard T x g m r p bs) {b : BufferId} (here : b ∈ bs) :
    b.index < p.capacity :=
  BufferPool.index_lt_of_stateOf? ((h.ledger.posted.mem_iff b).mp (mem_append_left _ here))

theorem RxGuard.nodup (h : RxGuard T x g m r p bs) : bs.Nodup :=
  (nodup_append.mp h.ledger.posted.nodup).1

/-- The adapter is ahead of the ring by the buffers that neither it nor the doorbell waits for. -/
theorem RxGuard.past_eq (h : RxGuard T x g m r p bs) (lawful : T.lawful)
    (on : m.adapter.on .rx = true) :
    (m.adapter.counter .rxConsumer).past r.consumer =
      bs.length - (m.adapter.ahead .rx + g.unrung) := by
  have short := h.holds.length_lt_span
  rw [h.stands lawful on]
  exact Counter.past_advance _ (by omega)

/-- An arrival that waits is in the buffer of its slot. -/
theorem RxGuard.address_eq (h : RxGuard T x g m r p bs) {k : Nat} {b : BufferId}
    (hk : bs[k]? = some b) {arrival : Arrival}
    (lies : arrival.Lies m.toScene.hardware ((r.consumer.advance k).slot r.size.slots)) :
    arrival.address = p.base b := by
  obtain ⟨d, described, address, -⟩ := lies.described
  have written := h.table k (p.base b) (by rw [getElem?_map, hk]; rfl)
  rw [Adapter.rxAddress?] at written
  have described : m.adapter.rxTable.get? ((r.consumer.advance k).slot r.size.slots) = some d :=
    described
  rw [described, Option.map_some] at written
  exact address.symm.trans (Option.some.inj written)

/-! ## What changes nothing for an arrival -/

theorem Arrival.Lies.congr {arrival : Arrival} {slot : Nat} (h : arrival.Lies hw slot)
    (table : hw'.adapter.rxTable.get? slot = hw.adapter.rxTable.get? slot)
    (memory : hw'.memory.load arrival.address = hw.memory.load arrival.address) :
    arrival.Lies hw' slot := by
  obtain ⟨d, described, rest⟩ := h.described
  exact ⟨⟨d, table.trans described, rest⟩, memory.trans h.stored⟩

theorem Taking.Keeps.congr (h : t.Keeps hw r p hand)
    (table : hw'.adapter.rxTable = hw.adapter.rxTable) (memory : hw'.memory = hw.memory)
    (slots : r'.slots = r.slots) (kept : p.Kept p') : t.Keeps hw' r' p' hand := by
  have held : r'.held = r.held := by rw [RxRing.held, slots, RxRing.held]
  cases t with
  | nothing => exact h
  | shown => exact h
  | passed slot b =>
    obtain ⟨arrival, one, lies, address, inside, out, empty⟩ := h
    refine ⟨arrival, one, lies.congr (by rw [table]) (by rw [memory]), ?_, ?_, ?_, ?_⟩
    · rw [address, kept.base]
    · rw [kept.capacity]
      exact inside
    · rw [held]
      exact out
    · rw [RxRing.bufferAt?, slots]
      exact empty
  | read b c =>
    obtain ⟨arrival, one, completion, stored, address, inside, out⟩ := h
    refine ⟨arrival, one, completion, ?_, ?_, ?_, ?_⟩
    · rw [memory]
      exact stored
    · rw [address, kept.base]
    · rw [kept.capacity]
      exact inside
    · rw [held]
      exact out

/-- Neither the receive descriptors nor the memory change, nor does the adapter move. -/
theorem RxFlow.congr (h : RxFlow t hw r p hand waiting) (on : hw'.adapter.on .rx = true)
    (counter : hw'.adapter.counter .rxConsumer = hw.adapter.counter .rxConsumer)
    (table : hw'.adapter.rxTable = hw.adapter.rxTable) (memory : hw'.memory = hw.memory)
    (alike : r.Alike r') (kept : p.Kept p') : RxFlow t hw' r' p' hand waiting := by
  refine ⟨on, ?_, fun k arrival hk => ?_, h.taking.congr table memory alike.slots kept⟩
  · rw [counter, alike.consumer]
    exact h.length
  · rw [alike.consumer, alike.size]
    exact (h.lies k arrival hk).congr (by rw [table]) (by rw [memory])

/-! ## What comes in -/

/-- The adapter fills `b` next: the buffer is in the window, behind those that wait, and the
descriptor `d` in its slot names it. -/
structure Receiving (m : Machine) (r : RxRing) (p : BufferPool) (bs : List BufferId) (b : BufferId)
    (d : RxDescriptor) : Prop where
  /-- Its place in the window. -/
  place : bs[(m.adapter.counter .rxConsumer).past r.consumer]? = some b
  /-- Its slot. -/
  slot : m.adapter.receivingSlot =
    (r.consumer.advance ((m.adapter.counter .rxConsumer).past r.consumer)).slot r.size.slots
  /-- The descriptor there. -/
  described : m.adapter.receivingDescriptor? = some d
  /-- It has the address of the buffer. -/
  address : d.address = p.base b

/-- **While an adapter inside the window can fill a buffer, it is one of the window.** -/
theorem RxGuard.receiving (h : RxGuard T x g m r p bs) (lawful : T.lawful)
    (goes : m.adapter.rxSlots = r.size.slots) (fillable : m.adapter.fillable = true) :
    ∃ b d, Receiving m r p bs b d := by
  rw [Adapter.fillable, Bool.and_eq_true, bne_iff_ne] at fillable
  obtain ⟨on, some⟩ := fillable
  have some : m.adapter.ahead .rx ≠ 0 := some
  have within := (h.window lawful on).within
  have filled := h.filled
  have past := h.past_eq lawful on
  set w := (m.adapter.counter .rxConsumer).past r.consumer with hw
  have inside : w < bs.length := by omega
  have slot : m.adapter.receivingSlot = (r.consumer.advance w).slot r.size.slots := by
    rw [Adapter.receivingSlot, goes, hw, Counter.advance_past]
  have written := h.table w (p.base bs[w]) (by rw [getElem?_map, getElem?_eq_getElem inside]; rfl)
  rw [Adapter.rxAddress?, ← slot] at written
  obtain ⟨d, described, address⟩ := Option.map_eq_some_iff.mp written
  exact ⟨bs[w], d, getElem?_eq_getElem inside, slot, described, address⟩

/-- The hardware after a frame was received. -/
def Hardware.receive (hw : Hardware) (frame : Reception) : Hardware :=
  ⟨hw.adapter.receive frame, hw.adapter.storeFrame frame hw.memory⟩

namespace Receiving

variable {b c : BufferId} {d : RxDescriptor} {arrival : Arrival}

/-- A frame that arrives in one buffer is not seen in another. -/
theorem load_storeFrame (h : Receiving m r p bs b d) (guard : RxGuard T x g m r p bs)
    (apart : p.Apart m.memory) (inside : c.index < p.capacity) (ne : c ≠ b) (frame : Reception) :
    (m.adapter.storeFrame frame m.memory).load (p.base c) = m.memory.load (p.base c) := by
  rw [Adapter.storeFrame, h.described]
  dsimp only
  rw [h.address]
  exact apart.load_store inside (guard.index_lt (mem_of_getElem? h.place)) ne _ _

/-- What is in another slot and another buffer stays as it is. -/
theorem lies_elsewhere (h : Receiving m r p bs b d) (guard : RxGuard T x g m r p bs)
    (apart : p.Apart m.memory) {slot : Nat} (lies : arrival.Lies m.toScene.hardware slot)
    (other : slot ≠ m.adapter.receivingSlot) (address : arrival.address = p.base c)
    (inside : c.index < p.capacity) (ne : c ≠ b) (frame : Reception) :
    arrival.Lies (m.toScene.hardware.receive frame) slot := by
  refine lies.congr (m.adapter.get?_receive_of_ne frame other) ?_
  rw [address]
  exact h.load_storeFrame guard apart inside ne frame

/-- So does what waits. -/
theorem lies_before (h : Receiving m r p bs b d) (guard : RxGuard T x g m r p bs)
    (apart : p.Apart m.memory) {k : Nat}
    (before : k < (m.adapter.counter .rxConsumer).past r.consumer)
    (lies : arrival.Lies m.toScene.hardware ((r.consumer.advance k).slot r.size.slots))
    (frame : Reception) :
    arrival.Lies (m.toScene.hardware.receive frame)
      ((r.consumer.advance k).slot r.size.slots) := by
  have last := (List.getElem?_eq_some_iff.mp h.place).1
  have short := guard.holds.length_lt
  have here : bs[k]? = some bs[k] := getElem?_eq_getElem (by omega)
  have other : (r.consumer.advance k).slot r.size.slots ≠ m.adapter.receivingSlot := by
    intro same
    rw [h.slot] at same
    have := Counter.slot_advance_inj r.consumer r.size (by omega) (by omega) same
    omega
  have ne : bs[k] ≠ b := by
    intro same
    rw [same] at here
    have := (List.getElem?_inj (by omega) guard.nodup).mp (here.trans h.place.symm)
    omega
  exact h.lies_elsewhere guard apart lies other (guard.address_eq here lies)
    (guard.index_lt (getElem_mem _)) ne frame

/-- What arrives lies in the slot that the adapter was at. -/
theorem lies_arrival (h : Receiving m r p bs b d) (frame : Reception) :
    Arrival.Lies ⟨⟨frame.status, frame.length⟩, d.address, m.adapter.storeFrame frame m.memory⟩
      (m.toScene.hardware.receive frame) m.adapter.receivingSlot :=
  ⟨⟨{ d with completion := ⟨frame.status, frame.length⟩ },
    Adapter.get?_receive_self h.described frame, rfl, rfl⟩, rfl⟩

/-- What is in hand is in no slot, and stays as it is. -/
theorem keeps (h : Receiving m r p bs b d) (guard : RxGuard T x g m r p bs)
    (apart : p.Apart m.memory) (taking : t.Keeps m.toScene.hardware r p hand) (frame : Reception) :
    t.Keeps (m.toScene.hardware.receive frame) r p hand := by
  have posted : b ∈ r.held := guard.holds.held.mem_iff.mpr (mem_of_getElem? h.place)
  cases t with
  | nothing => exact taking
  | shown => exact taking
  | passed slot c =>
    obtain ⟨arrival, one, lies, address, inside, out, empty⟩ := taking
    have ne : c ≠ b := fun same => out (same ▸ posted)
    have other : slot ≠ m.adapter.receivingSlot := by
      intro same
      rw [same, h.slot, guard.holds.filled _ b h.place] at empty
      exact Option.some_ne_none b empty
    exact ⟨arrival, one, h.lies_elsewhere guard apart lies other address inside ne frame, address,
      inside, out, empty⟩
  | read c completion =>
    obtain ⟨arrival, one, completed, stored, address, inside, out⟩ := taking
    have ne : c ≠ b := fun same => out (same ▸ posted)
    refine ⟨arrival, one, completed, ?_, address, inside, out⟩
    rw [← stored, address]
    exact h.load_storeFrame guard apart inside ne frame

end Receiving

/-- **An arrival joins those that wait**, and the others stay as they are. -/
theorem RxFlow.fill (h : RxFlow t m.toScene.hardware r p hand waiting)
    (guard : RxGuard T x g m r p bs) (lawful : T.lawful)
    (goes : m.adapter.rxSlots = r.size.slots) (apart : p.Apart m.memory)
    (fillable : m.adapter.fillable = true) (frame : Reception) :
    ∃ d, m.adapter.receivingDescriptor? = some d ∧
      RxFlow t (m.toScene.hardware.receive frame) r p hand
        (waiting ++ [⟨⟨frame.status, frame.length⟩, d.address,
          m.adapter.storeFrame frame m.memory⟩]) := by
  obtain ⟨b, d, next⟩ := guard.receiving lawful goes fillable
  have length : waiting.length = (m.adapter.counter .rxConsumer).past r.consumer := h.length
  have inside := (List.getElem?_eq_some_iff.mp next.place).1
  have span := guard.holds.length_lt_span
  refine ⟨d, next.described, ?_, ?_, fun k arrival hk => ?_, next.keeps guard apart h.taking frame⟩
  · show (m.adapter.receive frame).isOn .rxDmaControl = true
    rw [Adapter.isOn, m.adapter.read_receive_of_ne frame (by decide)]
    exact h.on
  · have stands : m.adapter.counter .rxConsumer = r.consumer.advance waiting.length := by
      rw [length, Counter.advance_past]
    show _ = ((m.adapter.receive frame).counter .rxConsumer).past r.consumer
    rw [length_append, length_singleton, Adapter.counter_receive, stands, Counter.advance_advance,
      Counter.past_advance _ (by omega)]
  · by_cases old : k < waiting.length
    · rw [getElem?_append_left old] at hk
      exact next.lies_before guard apart (length ▸ old) (h.lies k arrival hk) frame
    · obtain rfl : k = waiting.length := by
        have := (List.getElem?_eq_some_iff.mp hk).1
        rw [length_append, length_singleton] at this
        omega
      rw [getElem?_concat_length] at hk
      obtain rfl := Option.some.inj hk
      rw [length, ← next.slot]
      exact next.lies_arrival frame

/-! ## What software does -/

/-- A descriptor is written behind the window. -/
theorem RxFlow.describe (h : RxFlow .nothing m.toScene.hardware r p hand waiting)
    (guard : RxGuard T x g m r p bs) (lawful : T.lawful) (address : BusAddress)
    (capacity : UInt32) :
    RxFlow .nothing ⟨m.adapter.writeRx r.tailSlot address capacity, m.memory⟩ r p hand waiting := by
  refine ⟨h.on, h.length, fun k arrival hk => (h.lies k arrival hk).congr ?_ rfl, h.taking⟩
  have inside := (List.getElem?_eq_some_iff.mp hk).1
  have length : waiting.length = (m.adapter.counter .rxConsumer).past r.consumer := h.length
  have past := guard.past_eq lawful h.on
  have short := guard.holds.length_lt
  refine SlotTable.get?_set_of_ne _ (fun same => ?_) _
  rw [RxRing.tailSlot, guard.holds.producer] at same
  have := Counter.slot_advance_inj r.consumer r.size (by omega) short same
  omega

/-- The oldest slot is passed: the first of those that wait is in hand. -/
theorem RxFlow.pass {b : BufferId} (h : RxFlow .nothing m.toScene.hardware r p hand waiting)
    (guard : RxGuard T x g m r p (b :: bs)) (lawful : T.lawful) (due : 0 < g.due) :
    hand = [] ∧ ∃ arrival later, waiting = arrival :: later ∧
      RxFlow (.passed r.headSlot b) m.toScene.hardware r.pass p [arrival] later := by
  have on : m.adapter.on .rx = true := h.on
  have length : waiting.length = (m.adapter.counter .rxConsumer).past r.consumer := h.length
  have within := (guard.window lawful on).within
  have filled := guard.filled
  have past := guard.past_eq lawful on
  have span := guard.holds.length_lt_span
  refine ⟨h.taking, ?_⟩
  cases waiting with
  | nil =>
    rw [length_nil] at length
    omega
  | cons arrival later =>
    rw [length_cons] at length
    have first : arrival.Lies m.toScene.hardware r.headSlot := by
      have lies := h.lies 0 arrival rfl
      rwa [Counter.advance_zero] at lies
    have stands : m.adapter.counter .rxConsumer = r.consumer.advance (later.length + 1) := by
      rw [length, Counter.advance_past]
    have inside := guard.holds.slot_lt r.consumer
    refine ⟨arrival, later, rfl, on, ?_, fun k arrival' hk => ?_, arrival, rfl, first, ?_,
      guard.index_lt mem_cons_self, ?_, ?_⟩
    · show _ = (m.adapter.counter .rxConsumer).past (r.consumer.advance 1)
      rw [stands, Counter.past_advance_advance _ (by omega) (by omega), Nat.add_sub_cancel]
    · have lies := h.lies (k + 1) arrival' hk
      show arrival'.Lies _ (((r.consumer.advance 1).advance k).slot r.size.slots)
      rwa [Counter.advance_advance, Nat.add_comm 1]
    · refine guard.address_eq (k := 0) rfl ?_
      rwa [Counter.advance_zero]
    · intro held
      have left := guard.holds.pass.held.mem_iff.mp held
      exact (nodup_cons.mp guard.nodup).1 left
    · have emptied := RxRing.getD_setIfInBounds r.slots inside none r.headSlot
      exact emptied.trans (if_pos rfl)

end

/-! ## The ground -/

/-- What never changes: the adapter goes round the ring, and no two buffers share a block. -/
structure RxGround (T : RxTerms) (c : Taking × Machine) : Prop where
  /-- The adapter goes round as many slots as the ring has. -/
  goes : c.2.adapter.rxSlots = T.size.slots
  /-- The buffers of the pool lie apart. -/
  apart : ∃ p, c.2.poolAt? T.place = some p ∧ p.Apart c.2.memory

section

variable {T : RxTerms} {switches : Prop} {m m' : Machine} {t t' : Taking}

theorem RxGround.of {p p' : BufferPool} (h : RxGround T (t, m)) (pool : m.poolAt? T.place = some p)
    (goes : m'.adapter.rxSlots = m.adapter.rxSlots)
    (blocks : ∀ a, m'.memory.blockAt? a = m.memory.blockAt? a)
    (pool' : m'.poolAt? T.place = some p') (kept : p.Kept p') : RxGround T (t', m') := by
  obtain ⟨q, hq, apart⟩ := h.apart
  obtain rfl := Option.some.inj (hq.symm.trans pool)
  exact ⟨goes.trans h.goes, p', pool', (apart.kept kept).congr blocks⟩

/-- An event that is entered after a change of the adapter and the memory. -/
theorem RxGround.record (h : RxGround T (t, m)) {k : Machine} (e : Event)
    (goes : k.adapter.rxSlots = m.adapter.rxSlots)
    (blocks : ∀ a, k.memory.blockAt? a = m.memory.blockAt? a) (pools : k.pools = m.pools) :
    RxGround T (t', k.record e) := by
  obtain ⟨p, pool, -⟩ := h.apart
  refine h.of pool ?_ (fun a => ?_) ?_ (.refl p)
  · rw [Machine.toScene_record]
    exact goes
  · rw [Machine.toScene_record]
    exact blocks a
  · rw [Machine.poolAt?_record, Machine.poolAt?, pools]
    exact pool

theorem RxStep.ground {c c' : Taking × Machine} (step : RxStep T switches c c')
    (h : RxGround T c) : RxGround T c' := by
  obtain ⟨source, target, change⟩ := step
  have pool := source.pool
  cases change with
  | move => exact h.record _ (Adapter.rxSlots_move _ _) (Adapter.blockAt?_store _ _ _) rfl
  | note => exact h.record _ rfl (fun _ => rfl) rfl
  | reply => exact h.record _ rfl (fun _ => rfl) rfl
  | write => exact h.record _ (Adapter.rxSlots_write _ _ _) (fun _ => rfl) rfl
  | writeTx => exact h.record _ rfl (fun _ => rfl) rfl
  | ring => exact h.record _ (Adapter.rxSlots_write _ _ _) (fun _ => rfl) rfl
  | switch => exact h.record _ (Adapter.rxSlots_write _ _ _) (fun _ => rfl) rfl
  | describe => exact h.record _ rfl (fun _ => rfl) rfl
  | post kept => exact h.of pool rfl (fun _ => rfl) (Machine.poolAt?_setPool pool) kept
  | clear kept => exact h.of pool rfl (fun _ => rfl) (Machine.poolAt?_setPool pool) kept
  | resync => exact h.of pool rfl (fun _ => rfl) pool (.refl _)
  | pass => exact h.of pool rfl (fun _ => rfl) pool (.refl _)
  | take => exact h.record _ rfl (fun _ => rfl) rfl
  | reject => exact h.of pool rfl (fun _ => rfl) pool (.refl _)
  | deliver => exact h.record _ rfl (fun _ => rfl) rfl
  | settle => exact h.of pool rfl (fun _ => rfl) pool (.refl _)
  | hold => exact h.of pool rfl (fun _ => rfl) pool (.refl _)
  | aside _ aside =>
    obtain ⟨p', pool', kept⟩ := aside.pool
    exact h.of pool (by rw [aside.adapter]) (fun _ => by rw [aside.memory]) pool' kept

/-- So it is the same all along a run. -/
theorem RxAt.ground {x : RxStage} {g : Hands} (h : RxAt (T.track switches m) x g m')
    (ground : RxGround T (.nothing, m)) : RxGround T (g.taking, m') :=
  Machine.inv_of_steps (RxGround T) (fun _ _ step => step.ground) h.run ground

/-! ## Steps -/

/-- Of the frames that have arrived since the start, the first ones are done with; the others are on
their way.  Those that are done with were shown, if they are to be shown. -/
def RxFlowing (T : RxTerms) (start : Hardware) (n : Nat) (c : Taking × Machine) : Prop :=
  ∃ r p past hand waiting, c.2.rx = some r ∧ c.2.poolAt? T.place = some p ∧
    c.2.Since start n (past ++ hand ++ waiting)
      (past.filterMap (Arrival.payload? r.pad p.bufferSize)) ∧
    RxFlow c.1 c.2.toScene.hardware r p hand waiting

section Flowing

variable {x : RxStage} {g : Hands} {r r' : RxRing} {p p' : BufferPool} {bs : List BufferId}
  {start : Hardware} {n : Nat} {past hand waiting : List Arrival}

/-- A step with an event. -/
theorem RxFlowing.record (past' hand' waiting' : List Arrival) (guard : RxGuard T x g m r p bs)
    {k : Machine} {e : Event} {a : Adapter} {mem : Memory}
    (same : k.toScene = { m.toScene with adapter := a, memory := mem })
    (hardware : m.toScene.hardware.after e = ⟨a, mem⟩)
    (since : m.Since start n (past ++ hand ++ waiting)
      (past.filterMap (Arrival.payload? r.pad p.bufferSize)))
    (arrived : past ++ hand ++ waiting ++ (m.toScene.hardware.arrival? e).toList =
      past' ++ hand' ++ waiting')
    (shown : past.filterMap (Arrival.payload? r.pad p.bufferSize) ++ e.shown?.toList =
      past'.filterMap (Arrival.payload? r.pad p.bufferSize))
    (flow : RxFlow t' ⟨a, mem⟩ r p hand' waiting') : RxFlowing T start n (t', k.record e) := by
  have hw : k.toScene.hardware = ⟨a, mem⟩ := by rw [Scene.hardware, same]
  refine ⟨r, p, past', hand', waiting', ?_, ?_, ?_, ?_⟩
  · rw [Machine.toScene_record, same]
    exact guard.rx
  · have pools : k.pools = m.pools := by rw [same]
    rw [Machine.poolAt?_record, Machine.poolAt?, pools]
    exact guard.pool
  · rw [← arrived, ← shown]
    exact since.record guard.complete (by rw [same]) (hardware.trans hw.symm)
  · have hw' : (k.record e).toScene.hardware = ⟨a, mem⟩ := by
      rw [Machine.toScene_record]
      exact hw
    show RxFlow t' (k.record e).toScene.hardware r p hand' waiting'
    rw [hw']
    exact flow

/-- A step with an event by which nothing arrives and nothing is shown. -/
theorem RxFlowing.record_aside (guard : RxGuard T x g m r p bs) {k : Machine} {e : Event}
    {a : Adapter} {mem : Memory} (same : k.toScene = { m.toScene with adapter := a, memory := mem })
    (hardware : m.toScene.hardware.after e = ⟨a, mem⟩)
    (since : m.Since start n (past ++ hand ++ waiting)
      (past.filterMap (Arrival.payload? r.pad p.bufferSize)))
    (arrival : m.toScene.hardware.arrival? e = none) (quiet : e.shown? = none)
    (flow : RxFlow t' ⟨a, mem⟩ r p hand waiting) : RxFlowing T start n (t', k.record e) := by
  refine .record past hand waiting guard same hardware since ?_ ?_ flow
  · rw [arrival, Option.toList_none, append_nil]
  · rw [quiet, Option.toList_none, append_nil]

/-- A step without an event. -/
theorem RxFlowing.still (past' hand' waiting' : List Arrival)
    (since : m.Since start n (past ++ hand ++ waiting)
      (past.filterMap (Arrival.payload? r.pad p.bufferSize)))
    (hardware : m'.toScene.hardware = m.toScene.hardware) (journal : m'.journal = m.journal)
    (rx : m'.rx = some r') (pool : m'.poolAt? T.place = some p') (pad : r'.pad = r.pad)
    (layout : p'.layout = p.layout)
    (arrived : past ++ hand ++ waiting = past' ++ hand' ++ waiting')
    (shown : past.filterMap (Arrival.payload? r.pad p.bufferSize) =
      past'.filterMap (Arrival.payload? r.pad p.bufferSize))
    (flow : RxFlow t' m.toScene.hardware r' p' hand' waiting') :
    RxFlowing T start n (t', m') := by
  have adapter : m'.adapter = m.adapter := congrArg Hardware.adapter hardware
  have memory : m'.memory = m.memory := congrArg Hardware.memory hardware
  refine ⟨r', p', past', hand', waiting', rx, pool, ?_, ?_⟩
  · have size : p'.bufferSize = p.bufferSize := congrArg Layout.size layout
    rw [pad, size, ← arrived, ← shown]
    exact since.congr journal adapter memory
  · show RxFlow t' m'.toScene.hardware r' p' hand' waiting'
    rw [hardware]
    exact flow

/-- The adapter makes a move, and something may arrive by it. -/
theorem RxFlowing.move (guard : RxGuard T x g m r p bs) (lawful : T.lawful)
    (goes : m.adapter.rxSlots = r.size.slots) (apart : p.Apart m.memory) {mv : Move}
    (permitted : T.permits mv)
    (since : m.Since start n (past ++ hand ++ waiting)
      (past.filterMap (Arrival.payload? r.pad p.bufferSize)))
    (flow : RxFlow t m.toScene.hardware r p hand waiting) :
    RxFlowing T start n (t, m.move mv) := by
  have law := T.law lawful mv permitted
  cases filled : m.adapter.filled? mv with
  | none =>
    obtain ⟨table, memory⟩ := Adapter.move_of_filled?_eq_none filled
    refine .record_aside guard rfl rfl since ?_ rfl
      (flow.congr ((law.on_eq _).trans flow.on) (law.consumer_eq_of_filled?_eq_none filled) table
        (memory _) (.refl _) (.refl _))
    show (m.adapter.filled? mv).bind _ = none
    rw [filled]
    rfl
  | some frame =>
    obtain ⟨moved, stored⟩ := Adapter.move_of_filled? filled
    obtain ⟨d, described, flow'⟩ := flow.fill guard lawful goes apart (law.fillable filled) frame
    have received : m.toScene.hardware.receive frame =
        ⟨m.adapter.move mv, m.adapter.store mv m.memory⟩ := by
      rw [moved, stored]
      rfl
    rw [received, ← stored m.memory] at flow'
    refine .record past hand _ guard rfl rfl since ?_ (append_nil _) flow'
    have arrival : m.toScene.hardware.arrival? (.moved mv) =
        some ⟨⟨frame.status, frame.length⟩, d.address, m.adapter.store mv m.memory⟩ := by
      show (m.adapter.filled? mv).bind _ = _
      rw [filled, stored]
      show m.adapter.receivingDescriptor?.map _ = _
      rw [described]
      rfl
    rw [arrival, Option.toList_some, append_assoc]

/-- What was read is not to be shown, and is done with. -/
theorem RxFlowing.reject {b : BufferId} {c : Completion} (rx : m.rx = some r)
    (pool : m.poolAt? T.place = some p)
    (since : m.Since start n (past ++ hand ++ waiting)
      (past.filterMap (Arrival.payload? r.pad p.bufferSize)))
    (flow : RxFlow (.read b c) m.toScene.hardware r p hand waiting)
    (lost : r.deliverable p.bufferSize c = false) : RxFlowing T start n (.nothing, m) := by
  obtain ⟨arrival, rfl, completion, -⟩ := flow.taking
  have unseen : arrival.payload? r.pad p.bufferSize = none := by
    refine if_neg fun deliverable => ?_
    rw [completion, ← RxRing.deliverable_iff, lost] at deliverable
    exact Bool.false_ne_true deliverable
  refine .still (past ++ [arrival]) [] waiting since rfl rfl rx pool rfl rfl ?_ ?_
    ⟨flow.on, flow.length, flow.lies, rfl⟩
  · rw [append_nil]
  · rw [filterMap_append, filterMap_cons_none unseen, filterMap_nil, append_nil]

/-- **What was read is shown as it arrived.** -/
theorem RxFlowing.deliver {b : BufferId} {c : Completion} {f : Frame}
    (guard : RxGuard T x g m r p bs)
    (since : m.Since start n (past ++ hand ++ waiting)
      (past.filterMap (Arrival.payload? r.pad p.bufferSize)))
    (flow : RxFlow (.read b c) m.toScene.hardware r p hand waiting)
    (whole : r.deliverable p.bufferSize c = true) (shows : f.Shows r p b c) :
    RxFlowing T start n (.shown f, m.record (.delivered f (f.bytes m.memory))) := by
  obtain ⟨arrival, rfl, completion, stored, address, -⟩ := flow.taking
  have seen : arrival.payload? r.pad p.bufferSize = some (f.bytes m.memory) := by
    rw [RxRing.deliverable_iff, ← completion] at whole
    rw [Arrival.payload?, if_pos whole, Arrival.payload, Frame.bytes, shows.address, shows.pad,
      shows.length, ← address, ← completion]
    exact congrArg some (congrFun (congrFun stored _) _).symm
  refine .record (past ++ [arrival]) [] waiting guard rfl rfl since ?_ ?_
    ⟨flow.on, flow.length, flow.lies, rfl⟩
  · show _ ++ [] = _
    rw [append_nil, append_nil]
  · rw [filterMap_append, filterMap_cons_some seen]
    rfl

end Flowing

/-- **Every step keeps the frames in order**, while the direction is not switched. -/
theorem RxStep.flows (lawful : T.lawful) {c c' : Taking × Machine} (step : RxStep T False c c')
    {start : Hardware} {n : Nat} (ground : RxGround T c) (h : RxFlowing T start n c) :
    RxFlowing T start n c' := by
  obtain @⟨x, x', g, g', m, m', r, r', p, p', bs, bs', t, t', source, target, change⟩ := step
  obtain ⟨q, o, past, hand, waiting, rx, pool, since, flow⟩ := h
  obtain rfl := Option.some.inj (source.rx.symm.trans rx)
  obtain rfl := Option.some.inj (source.pool.symm.trans pool)
  obtain ⟨goes, o, pool', apart⟩ := ground
  obtain rfl := Option.some.inj (source.pool.symm.trans pool')
  rw [← source.size] at goes
  have on : m.adapter.on .rx = true := flow.on
  cases change with
  | move _ permitted => exact .move source lawful goes apart permitted since flow
  | @note _ e note =>
    cases e with
    | read | noticed | accepted | posting | completed | armed | notified =>
      exact .record_aside source rfl rfl since rfl rfl flow
    | _ => exact absurd note Bool.false_ne_true
  | reply => exact .record_aside source rfl rfl since rfl rfl flow
  | write _ v other =>
    have agrees : m.adapter.Agrees .rx (m.adapter.write _ v) := .write other (by decide) v
    exact .record_aside source rfl rfl since rfl rfl
      (flow.congr (agrees.on_eq.trans on) agrees.counter_eq (Adapter.rxTable_write _ _ _) rfl
        (.refl _) (.refl _))
  | writeTx =>
    exact .record_aside source rfl rfl since rfl rfl
      (flow.congr on rfl rfl rfl (.refl _) (.refl _))
  | ring _ v =>
    refine .record_aside source rfl rfl since rfl rfl
      (flow.congr ?_ ?_ (Adapter.rxTable_write _ _ _) rfl (.refl _) (.refl _))
    · exact (Adapter.isOn_write_of_ne _ (by decide) (by decide) _).trans on
    · exact Adapter.counter_write_of_ne _ (by decide) (by decide) _
  | switch _ _ allowed => exact allowed.elim
  | describe b capacity =>
    exact .record_aside source rfl rfl since rfl rfl (flow.describe source lawful _ _)
  | @post b p' kept fits =>
    exact .still past hand waiting since rfl rfl rfl (Machine.poolAt?_setPool pool) rfl kept.layout
      rfl rfl ⟨flow.on, flow.length, flow.lies, flow.taking⟩
  | clear _ off => exact absurd ((off lawful).symm.trans on) Bool.false_ne_true
  | resync _ off => exact absurd ((off lawful).symm.trans on) Bool.false_ne_true
  | @pass b rest oldest due =>
    subst oldest
    obtain ⟨rfl, arrival, later, rfl, flow'⟩ := flow.pass source lawful due
    refine .still past [arrival] later since rfl rfl rfl pool rfl rfl ?_ rfl flow'
    rw [append_nil, append_assoc]
    rfl
  | take slot b =>
    obtain ⟨arrival, rfl, lies, address, inside, out, -⟩ := flow.taking
    obtain ⟨d, described, -, completion⟩ := lies.described
    refine .record_aside source rfl rfl since rfl rfl ⟨flow.on, flow.length, flow.lies,
      arrival, rfl, ?_, lies.stored, address, inside, out⟩
    have described : m.adapter.rxTable.get? slot = some d := described
    rw [Adapter.completionAt, described]
    exact completion.symm
  | reject lost => exact .reject rx pool since flow lost
  | deliver whole shows => exact .deliver source since flow whole shows
  | settle =>
    exact .still past hand waiting since rfl rfl rx pool rfl rfl rfl rfl
      ⟨flow.on, flow.length, flow.lies, flow.taking⟩
  | hold =>
    exact .still past hand waiting since rfl rfl rx pool rfl rfl rfl rfl
      ⟨flow.on, flow.length, flow.lies, flow.taking⟩
  | aside _ aside =>
    obtain ⟨r', rx', alike⟩ := aside.rx
    obtain ⟨p', pool', kept⟩ := aside.pool
    have hardware : m'.toScene.hardware = m.toScene.hardware := by
      rw [Scene.hardware, aside.adapter, aside.memory]
      rfl
    exact .still past hand waiting since hardware aside.journal rx' pool' alike.pad kept.layout rfl
      rfl (flow.congr on rfl rfl rfl alike kept)

end

end DescriptorRings
