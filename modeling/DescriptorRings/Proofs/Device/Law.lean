import DescriptorRings.Device.Adapter
import DescriptorRings.Proofs.Counter.Window

/-!
# The law of the adapter

What software may rely on about the adapter is one law for each direction.  Of the three registers
of a direction, the doorbell and the switch belong to software, and the adapter leaves them alone.
The counter belongs to the adapter, which moves it forward only, only while the direction is
switched on, and never past the doorbell.

A move of the adapter is *lawful* if it keeps this law whatever state it is made in.  The moves
`transmit` and `fill` are, each in its own direction: `transmit n` goes as far as the law allows and
no farther than `n`, so that between them they come to everything that a lawful adapter can do.
Moves that do not touch the three registers are lawful as well.  The obliging moves `consume` and
`receive` are not.

Under the law the number of descriptors between the counter and the doorbell can only shrink by a
move (`posted_le`), and where there is none, or the direction is off, the counter stands still
(`consumer_eq`).  Nothing else about the adapter is used by the proofs about the rings.

No move at all changes what software has written into a table, other than the completion words.
-/

namespace DescriptorRings

/-! ## Registers -/

namespace Adapter

variable (a : Adapter)

theorem read_write_of_ne {r s : Register} (h : s ≠ r) (hr : r ≠ .irqClear) (v : UInt32) :
    (a.write r v).read s = a.read s := by
  cases r <;> first | exact absurd rfl hr | exact read_assign_of_ne a h v

/-- A write to one register is seen in no other one, other than that acknowledging causes takes them
out of the status. -/
theorem read_write_elsewhere {r s : Register} (h : s ≠ r) (status : s ≠ .irqStatus) (v : UInt32) :
    (a.write r v).read s = a.read s := by
  by_cases clear : r = .irqClear
  · subst clear
    exact (read_assign_of_ne _ status _).trans (a.read_assign_of_ne h v)
  · exact a.read_write_of_ne h clear v

theorem counter_write_self (r : Register) (c : Counter) :
    (a.write r c.toUInt32).counter r = c := by
  rw [counter, read_write_self]
  exact UInt16.toUInt16_toUInt32 c

theorem counter_write_of_ne {r s : Register} (h : s ≠ r) (hr : r ≠ .irqClear) (v : UInt32) :
    (a.write r v).counter s = a.counter s := by
  rw [counter, read_write_of_ne a h hr, counter]

theorem isOn_write_of_ne {r s : Register} (h : s ≠ r) (hr : r ≠ .irqClear) (v : UInt32) :
    (a.write r v).isOn s = a.isOn s := by
  rw [isOn, read_write_of_ne a h hr, isOn]

theorem isOn_write_off (r : Register) : (a.write r DmaControl.off).isOn r = false := by
  rw [isOn, read_write_self]
  decide

theorem isOn_write_enable (r : Register) : (a.write r DmaControl.enable).isOn r = true := by
  rw [isOn, read_write_self]
  decide

@[simp] theorem txTable_write (r : Register) (v : UInt32) : (a.write r v).txTable = a.txTable := by
  cases r <;> rfl

@[simp] theorem rxTable_write (r : Register) (v : UInt32) : (a.write r v).rxTable = a.rxTable := by
  cases r <;> rfl

/-! ## Tables -/

/-- The address that was last written into a receive slot. -/
def rxAddress? (a : Adapter) (slot : Nat) : Option BusAddress :=
  (a.rxTable.get? slot).map RxDescriptor.address

theorem rxAddress?_writeRx_self (slot : Nat) (address : BusAddress) (capacity : UInt32) :
    (a.writeRx slot address capacity).rxAddress? slot = some address := by
  rw [rxAddress?, writeRx, SlotTable.get?_set_self]
  rfl

theorem rxAddress?_writeRx_of_ne {slot s : Nat} (h : s ≠ slot) (address : BusAddress)
    (capacity : UInt32) : (a.writeRx slot address capacity).rxAddress? s = a.rxAddress? s := by
  rw [rxAddress?, writeRx, SlotTable.get?_set_of_ne _ h, rxAddress?]

theorem rxAddress?_receive (frame : Reception) (slot : Nat) :
    (a.receive frame).rxAddress? slot = a.rxAddress? slot := by
  unfold receive rxAddress?
  dsimp only [assign]
  cases h : a.rxTable.get? a.receivingSlot with
  | none => rfl
  | some d =>
    by_cases same : slot = a.receivingSlot
    · rw [same, SlotTable.get?_set_self, h]
      rfl
    · rw [SlotTable.get?_set_of_ne _ same]

/-- The frame that a move puts into a buffer, if it puts one. -/
def filled? (a : Adapter) : Move → Option Reception
  | .receive frame => some frame
  | .fill frame => if a.fillable then some frame else none
  | _ => none

/-- A move that fills a buffer receives a frame. -/
theorem move_of_filled? {a : Adapter} {mv : Move} {frame : Reception}
    (filled : a.filled? mv = some frame) :
    a.move mv = a.receive frame ∧ ∀ mem, a.store mv mem = a.storeFrame frame mem := by
  cases mv with
  | assign | raise | consume | transmit => exact absurd filled (by simp [filled?])
  | receive frame' =>
    obtain rfl := Option.some.inj filled
    exact ⟨rfl, fun _ => rfl⟩
  | fill frame' =>
    unfold filled? at filled
    unfold move store
    dsimp only at filled ⊢
    split at filled
    · rename_i fillable
      obtain rfl := Option.some.inj filled
      exact ⟨if_pos fillable, fun _ => if_pos fillable⟩
    · exact absurd filled (by simp)

/-- A move that fills no buffer leaves the receive descriptors and the memory alone. -/
theorem move_of_filled?_eq_none {a : Adapter} {mv : Move} (none : a.filled? mv = none) :
    (a.move mv).rxTable = a.rxTable ∧ ∀ mem, a.store mv mem = mem := by
  cases mv with
  | assign | raise | consume | transmit => exact ⟨rfl, fun _ => rfl⟩
  | receive frame => exact absurd none (by simp [filled?])
  | fill frame =>
    unfold filled? at none
    unfold move store
    dsimp only at none ⊢
    split at none
    · exact absurd none (by simp)
    · rename_i blocked
      rw [if_neg blocked]
      exact ⟨rfl, fun _ => if_neg blocked⟩

@[simp] theorem rxSlots_write (r : Register) (v : UInt32) : (a.write r v).rxSlots = a.rxSlots := by
  cases r <;> rfl

theorem rxSlots_receive (frame : Reception) : (a.receive frame).rxSlots = a.rxSlots := by
  unfold receive
  dsimp only
  split <;> rfl

/-- No move changes how many slots the adapter goes round. -/
@[simp] theorem rxSlots_move (mv : Move) : (a.move mv).rxSlots = a.rxSlots := by
  cases mv with
  | assign | raise | consume | transmit => rfl
  | receive frame => exact rxSlots_receive a frame
  | fill frame =>
    unfold move
    dsimp only
    split
    · exact rxSlots_receive a frame
    · rfl

/-- No move changes a transmit descriptor. -/
@[simp] theorem txTable_move (mv : Move) : (a.move mv).txTable = a.txTable := by
  have receive (frame : Reception) : (a.receive frame).txTable = a.txTable := by
    unfold Adapter.receive
    dsimp only
    split <;> rfl
  cases mv with
  | assign | raise | consume | transmit => rfl
  | receive frame => exact receive frame
  | fill frame =>
    unfold move
    dsimp only
    split
    · exact receive frame
    · rfl

/-- No move changes the address in a receive descriptor. -/
@[simp] theorem rxAddress?_move (mv : Move) (slot : Nat) :
    (a.move mv).rxAddress? slot = a.rxAddress? slot := by
  cases mv with
  | assign | raise | consume | transmit => rfl
  | receive frame => exact rxAddress?_receive a frame slot
  | fill frame =>
    unfold move
    dsimp only
    split
    · exact rxAddress?_receive a frame slot
    · rfl

end Adapter

/-- A move that leaves a register alone, whatever state it is made in. -/
def Move.Spares (r : Register) (mv : Move) : Prop := ∀ a : Adapter, (a.move mv).read r = a.read r

/-- **A register that the adapter has no business with is left alone**, unless somebody else puts a
word into it. -/
theorem Move.spares_of_ne_assign {r : Register} (other : r ∉ [.txConsumer, .rxConsumer, .irqStatus])
    {mv : Move} (h : ∀ v, mv ≠ .assign r v) : mv.Spares r := by
  have sent : r ≠ .txConsumer := by
    rintro rfl
    exact other (by decide)
  have filled : r ≠ .rxConsumer := by
    rintro rfl
    exact other (by decide)
  have raised : r ≠ .irqStatus := by
    rintro rfl
    exact other (by decide)
  have received (a : Adapter) (frame : Reception) : (a.receive frame).read r = a.read r := by
    have moved := a.read_assign_of_ne filled ((a.counter .rxConsumer).advance 1).toUInt32
    unfold Adapter.receive
    dsimp only
    split
    · exact moved
    · exact moved
  intro a
  cases mv with
  | assign s v =>
    refine a.read_assign_of_ne ?_ v
    rintro rfl
    exact h v rfl
  | raise causes => exact a.read_assign_of_ne raised _
  | consume n => exact a.read_assign_of_ne sent _
  | transmit n => exact a.read_assign_of_ne sent _
  | receive frame => exact received a frame
  | fill frame =>
    unfold Adapter.move
    dsimp only
    split
    · exact received a frame
    · rfl

/-- A move that leaves both switches alone, as the adapter's own moves do. -/
def Move.SparesSwitches (mv : Move) : Prop := mv.Spares .txDmaControl ∧ mv.Spares .rxDmaControl

/-! ## The law -/

/-- The registers of one direction. -/
structure Lane where
  /-- How far software has posted descriptors. -/
  producer : Register
  /-- How far the adapter has consumed them. -/
  consumer : Register
  /-- The switch of the direction. -/
  control : Register

namespace Lane

/-- The transmit direction. -/
def tx : Lane := ⟨.txProducer, .txConsumer, .txDmaControl⟩

/-- The receive direction. -/
def rx : Lane := ⟨.rxProducer, .rxConsumer, .rxDmaControl⟩

end Lane

namespace Adapter

/-- Whether a direction is switched on. -/
def on (a : Adapter) (l : Lane) : Bool := a.isOn l.control

/-- How many descriptors lie between the adapter's counter and the doorbell. -/
def ahead (a : Adapter) (l : Lane) : Nat := a.posted l.producer l.consumer

/-- How far the law allows the adapter to go. -/
def allowance (a : Adapter) (l : Lane) : Nat := if a.on l then a.ahead l else 0

end Adapter

/-- **A move that keeps the law of a direction**, whatever state it is made in. -/
structure Move.Lawful (l : Lane) (mv : Move) : Prop where
  /-- The doorbell is left alone. -/
  producer : ∀ a : Adapter, (a.move mv).read l.producer = a.read l.producer
  /-- The switch is left alone. -/
  control : ∀ a : Adapter, (a.move mv).read l.control = a.read l.control
  /-- The counter moves forward, if the direction is on, and not past the doorbell. -/
  consumer : ∀ a : Adapter, ∃ n ≤ a.allowance l,
    (a.move mv).counter l.consumer = (a.counter l.consumer).advance n

namespace Move.Lawful

variable {l : Lane} {mv : Move}

theorem on_eq (h : mv.Lawful l) (a : Adapter) : (a.move mv).on l = a.on l := by
  rw [Adapter.on, Adapter.isOn, h.control, Adapter.on, Adapter.isOn]

theorem producer_eq (h : mv.Lawful l) (a : Adapter) :
    (a.move mv).counter l.producer = a.counter l.producer := by
  rw [Adapter.counter, h.producer, Adapter.counter]

/-- **The adapter catches up with the doorbell, and never overtakes it.** -/
theorem posted_le (h : mv.Lawful l) (a : Adapter) : (a.move mv).ahead l ≤ a.ahead l := by
  obtain ⟨n, hn, hc⟩ := h.consumer a
  have hle : n ≤ a.ahead l := by
    unfold Adapter.allowance at hn
    split at hn
    · exact hn
    · exact Nat.le_trans hn (Nat.zero_le _)
  have hp : a.counter l.producer = (a.counter l.consumer).advance (a.ahead l) :=
    (Counter.advance_past _ _).symm
  have hspan : a.ahead l < Counter.span := Counter.past_lt _ _
  rw [Adapter.ahead, Adapter.posted, h.producer_eq, hc, hp,
    Counter.past_advance_advance _ hle (Nat.lt_of_le_of_lt (Nat.sub_le _ _) hspan)]
  exact Nat.sub_le _ _

/-- Where the law allows nothing, the counter stands still. -/
theorem consumer_eq (h : mv.Lawful l) {a : Adapter} (none : a.allowance l = 0) :
    (a.move mv).counter l.consumer = a.counter l.consumer := by
  obtain ⟨n, hn, hc⟩ := h.consumer a
  obtain rfl := Nat.le_zero.mp (none ▸ hn)
  rw [hc, Counter.advance_zero]

/-- A move that touches no register of a direction keeps its law. -/
theorem of_read_eq
    (same : ∀ a : Adapter, ∀ r ∈ [l.producer, l.consumer, l.control],
      (a.move mv).read r = a.read r) : mv.Lawful l where
  producer a := same a _ (by simp)
  control a := same a _ (by simp)
  consumer a := ⟨0, Nat.zero_le _, by
    rw [Adapter.counter, same a _ (by simp), Counter.advance_zero, Adapter.counter]⟩

end Move.Lawful

namespace Adapter

/-- What an adapter may have become by lawful moves of its own: what the rings rely on. -/
structure Follows (l : Lane) (a a' : Adapter) : Prop where
  /-- The switch is left alone. -/
  on_eq : a'.on l = a.on l
  /-- The doorbell is left alone. -/
  producer_eq : a'.counter l.producer = a.counter l.producer
  /-- The adapter has come nearer to the doorbell. -/
  ahead_le : a'.ahead l ≤ a.ahead l
  /-- It has not moved unless the law allowed it. -/
  consumer_eq : a.allowance l = 0 → a'.counter l.consumer = a.counter l.consumer

theorem Follows.refl (l : Lane) (a : Adapter) : a.Follows l a :=
  ⟨rfl, rfl, Nat.le_refl _, fun _ => rfl⟩

/-- Ringing the doorbell lets the adapter go up to there. -/
theorem ahead_write_producer {l : Lane} (ne : l.consumer ≠ l.producer)
    (plain : l.producer ≠ .irqClear) (a : Adapter) (c : Counter) :
    (a.write l.producer c.toUInt32).ahead l = c.past (a.counter l.consumer) := by
  rw [ahead, posted, counter_write_self, counter_write_of_ne a ne plain]

/-- The switch has no part in how far the adapter is from the doorbell. -/
theorem ahead_write_control {l : Lane} (hp : l.producer ≠ l.control) (hc : l.consumer ≠ l.control)
    (plain : l.control ≠ .irqClear) (a : Adapter) (v : UInt32) :
    (a.write l.control v).ahead l = a.ahead l := by
  rw [ahead, posted, counter_write_of_ne a hp plain, counter_write_of_ne a hc plain, ahead, posted]

/-- Two adapters hold the same in the registers of a direction. -/
structure Agrees (l : Lane) (a a' : Adapter) : Prop where
  /-- The doorbell. -/
  producer : a'.read l.producer = a.read l.producer
  /-- The counter. -/
  consumer : a'.read l.consumer = a.read l.consumer
  /-- The switch. -/
  control : a'.read l.control = a.read l.control

namespace Agrees

variable {l : Lane} {a a' : Adapter}

theorem refl (l : Lane) (a : Adapter) : a.Agrees l a := ⟨rfl, rfl, rfl⟩

theorem on_eq (h : a.Agrees l a') : a'.on l = a.on l := by
  rw [on, isOn, h.control, on, isOn]

theorem counter_eq (h : a.Agrees l a') : a'.counter l.consumer = a.counter l.consumer := by
  rw [counter, h.consumer, counter]

theorem follows (h : a.Agrees l a') : a.Follows l a' := by
  have producer : a'.counter l.producer = a.counter l.producer := by
    rw [counter, h.producer, counter]
  refine ⟨h.on_eq, producer, ?_, fun _ => h.counter_eq⟩
  rw [ahead, posted, producer, h.counter_eq, ahead, posted]

/-- A register of nobody's, or of another direction, is written. -/
theorem write {r : Register} (other : r ∉ [l.producer, l.consumer, l.control])
    (plain : .irqStatus ∉ [l.producer, l.consumer, l.control]) (v : UInt32) :
    a.Agrees l (a.write r v) := by
  have same (s : Register) (hs : s ∈ [l.producer, l.consumer, l.control]) :
      (a.write r v).read s = a.read s := by
    have ne : s ≠ r := fun e => other (e ▸ hs)
    have ne' : s ≠ .irqStatus := fun e => plain (e ▸ hs)
    exact a.read_write_elsewhere ne ne' v
  exact ⟨same _ (by simp), same _ (by simp), same _ (by simp)⟩

end Agrees

theorem allowance_eq_zero_of_off {l : Lane} {a : Adapter} (off : a.on l = false) :
    a.allowance l = 0 := by
  rw [allowance, off]
  rfl

end Adapter

theorem Move.Lawful.follows {l : Lane} {mv : Move} (h : mv.Lawful l) (a : Adapter) :
    a.Follows l (a.move mv) :=
  ⟨h.on_eq a, h.producer_eq a, h.posted_le a, h.consumer_eq⟩

/-! ## Lawful moves -/

namespace Adapter

theorem read_receive_of_ne (a : Adapter) (frame : Reception) {r : Register} (h : r ≠ .rxConsumer) :
    (a.receive frame).read r = a.read r := by
  unfold receive
  dsimp only
  split <;> exact read_assign_of_ne a h _

/-- A frame that arrives moves the counter on by one. -/
theorem counter_receive (a : Adapter) (frame : Reception) :
    (a.receive frame).counter .rxConsumer = (a.counter .rxConsumer).advance 1 := by
  have moved (v : UInt32) : (a.assign .rxConsumer v).read .rxConsumer = v :=
    a.read_assign_self _ v
  have read : (a.receive frame).read .rxConsumer =
      ((a.counter .rxConsumer).advance 1).toUInt32 := by
    unfold receive
    dsimp only
    split <;> exact moved _
  rw [counter, read]
  exact UInt16.toUInt16_toUInt32 _

/-- It is completed in the slot that the counter pointed at. -/
theorem get?_receive_self {a : Adapter} {d : RxDescriptor} (h : a.receivingDescriptor? = some d)
    (frame : Reception) : (a.receive frame).rxTable.get? a.receivingSlot =
      some { d with completion := ⟨frame.status, frame.length⟩ } := by
  unfold receivingDescriptor? at h
  unfold receive
  dsimp only [assign]
  rw [h]
  exact SlotTable.get?_set_self _ _ _

/-- The other slots stay as they are. -/
theorem get?_receive_of_ne (a : Adapter) (frame : Reception) {slot : Nat}
    (ne : slot ≠ a.receivingSlot) : (a.receive frame).rxTable.get? slot = a.rxTable.get? slot := by
  unfold receive
  dsimp only [assign]
  split
  · exact SlotTable.get?_set_of_ne _ ne _
  · rfl

end Adapter

namespace Move

/-- Transmitting keeps the law of the transmit direction, and goes as far as it allows. -/
theorem lawful_transmit (n : Nat) : (transmit n).Lawful .tx where
  producer a := a.read_assign_of_ne (by decide) _
  control a := a.read_assign_of_ne (by decide) _
  consumer a := ⟨min n a.transmittable, Nat.min_le_right _ _, by
    show ((a.consume _).read .txConsumer).toUInt16 = _
    rw [Adapter.consume, Adapter.read_assign_self]
    exact UInt16.toUInt16_toUInt32 _⟩

/-- Filling a buffer keeps the law of the receive direction. -/
theorem lawful_fill (frame : Reception) : (fill frame).Lawful .rx where
  producer a := by
    unfold Adapter.move
    dsimp only
    split
    · exact a.read_receive_of_ne frame (by decide)
    · rfl
  control a := by
    unfold Adapter.move
    dsimp only
    split
    · exact a.read_receive_of_ne frame (by decide)
    · rfl
  consumer a := by
    unfold Adapter.move
    dsimp only
    split
    · rename_i fillable
      refine ⟨1, ?_, a.counter_receive frame⟩
      rw [Adapter.fillable, Bool.and_eq_true, bne_iff_ne] at fillable
      have on : a.on .rx = true := fillable.1
      rw [Adapter.allowance, if_pos on]
      exact Nat.pos_of_ne_zero fillable.2
    · exact ⟨0, Nat.zero_le _, (Counter.advance_zero _).symm⟩

/-- Assigning to a register of its own is lawful in every other direction. -/
theorem lawful_assign {l : Lane} {r : Register} (h : r ∉ [l.producer, l.consumer, l.control])
    (v : UInt32) : (assign r v).Lawful l :=
  Lawful.of_read_eq fun a s hs => a.read_assign_of_ne (fun same => h (by rwa [same] at hs)) v

/-- An interrupt is lawful in a direction that does not use the register of causes. -/
theorem lawful_raise {l : Lane} (h : .irqStatus ∉ [l.producer, l.consumer, l.control])
    (causes : UInt32) : (raise causes).Lawful l :=
  Lawful.of_read_eq fun a s hs => a.read_assign_of_ne (fun same => h (by rwa [same] at hs)) _

/-- A frame that arrives keeps the law of the transmit direction. -/
theorem lawful_receive (frame : Reception) : (receive frame).Lawful .tx :=
  Lawful.of_read_eq fun a s hs =>
    a.read_receive_of_ne frame (by rintro rfl; simp [Lane.tx] at hs)

/-- A lawful move fills a buffer only if the law allows it. -/
theorem Lawful.fillable {mv : Move} (h : mv.Lawful .rx) {a : Adapter} {frame : Reception}
    (filled : a.filled? mv = some frame) : a.fillable = true := by
  cases mv with
  | assign | raise | consume | transmit => exact absurd filled (by simp [Adapter.filled?])
  | receive frame' =>
    -- an adapter that is off may not receive
    obtain ⟨n, hn, hc⟩ := h.consumer {}
    have none : ({} : Adapter).allowance .rx = 0 := by decide
    obtain rfl := Nat.le_zero.mp (none ▸ hn)
    have moved : (({} : Adapter).receive frame').counter .rxConsumer = 1 := rfl
    exact absurd (moved.symm.trans hc) (by decide)
  | fill frame' =>
    rw [Adapter.filled?] at filled
    split at filled
    · assumption
    · exact absurd filled (by simp)

/-- A lawful move that fills no buffer leaves the adapter's counter where it is. -/
theorem Lawful.consumer_eq_of_filled?_eq_none {mv : Move} (h : mv.Lawful .rx) {a : Adapter}
    (none : a.filled? mv = none) :
    (a.move mv).counter .rxConsumer = a.counter .rxConsumer := by
  have kept {r : Register} (ne : .rxConsumer ≠ r) (v : UInt32) :
      (a.assign r v).counter .rxConsumer = a.counter .rxConsumer := by
    rw [Adapter.counter, a.read_assign_of_ne ne, Adapter.counter]
  cases mv with
  | assign r v =>
    by_cases same : r = .rxConsumer
    · -- two adapters that are off would have to keep different counters
      subst same
      have off {b : Adapter} (off : b.allowance .rx = 0) : v.toUInt16 = b.counter .rxConsumer := by
        have hc : (b.assign .rxConsumer v).counter .rxConsumer = _ := h.consumer_eq off
        rwa [Adapter.counter, Adapter.read_assign_self] at hc
      have zero := off (b := {}) (by decide)
      have one := off (b := ({} : Adapter).assign .rxConsumer 1) (by decide)
      exact absurd (zero.symm.trans one) (by decide)
    · exact kept (Ne.symm same) v
  | raise causes => exact kept (by decide) _
  | consume n => exact kept (by decide) _
  | transmit n => exact kept (by decide) _
  | receive frame => exact absurd none (by simp [Adapter.filled?])
  | fill frame =>
    rw [Adapter.filled?] at none
    split at none
    · exact absurd none (by simp)
    · rename_i blocked
      rw [Adapter.move, if_neg blocked]

/-- Whatever a lawful move does to the adapter's counter, a move `transmit` can do. -/
theorem exists_transmit {mv : Move} (h : mv.Lawful .tx) (a : Adapter) :
    ∃ n, (a.move mv).counter .txConsumer = (a.move (transmit n)).counter .txConsumer := by
  obtain ⟨n, hn, hc⟩ := h.consumer a
  refine ⟨n, ?_⟩
  have hmin : min n a.transmittable = n := Nat.min_eq_left hn
  have moved : (a.move (transmit n)).counter .txConsumer = (a.counter .txConsumer).advance n := by
    show ((a.consume (min n a.transmittable)).read .txConsumer).toUInt16 = _
    rw [hmin, Adapter.consume, Adapter.read_assign_self]
    exact UInt16.toUInt16_toUInt32 _
  rw [moved]
  exact hc

end Move

end DescriptorRings
