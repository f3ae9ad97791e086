import DescriptorRings.Proofs.Counter.Window

/-!
# Counting modulo the ring

Three moduli meet in the arithmetic of a ring: counters wrap at `65536`, a distance is cut to the
size of the ring, and a step of any length is cut to sixteen bits before it is taken.  They do not
get into each other's way, because every admitted size divides the span of the counters; so slots
and distances are what they would be if counters never wrapped at all
(`ring_arithmetic_is_modular`).

That settles the two ways in which it can be asked whether a packet is done.  Seen from the producer
its last descriptor lies further back than the adapter's counter; seen from the oldest descriptor
that was not given back it lies less far ahead.  As long as one slot stays empty both questions have
the same answer (`done_checks_agree`).  A ring with no empty slot would spoil both: its producer
stands on the slot of its oldest descriptor, and a distance cannot tell a full ring from an empty
one.
-/

namespace DescriptorRings

namespace Counter

/-- A counter has run past an earlier one by the steps that it took, up to whole turns. -/
theorem past_advance_self (c : Counter) (n : Nat) : (c.advance n).past c = n % span := by
  rw [past, advance, UInt16.add_comm, UInt16.add_sub_cancel, UInt16.toNat_ofNat']
  rfl

/-- **A step is cut to sixteen bits, and its distance does not notice.** -/
theorem distance_advance_self (c : Counter) (size : RingSize) (n : Nat) :
    (c.advance n).distance c size.slots = n % size.slots := by
  have steps : (c.advance n).distance c size.slots = (c.advance n).past c % size.slots := rfl
  rw [steps, past_advance_self, Nat.mod_mod_of_dvd _ size.dvd_span]

/-- **A distance is the difference of two slots**, with a turn of the ring added so that it does not
fall below zero. -/
theorem distance_eq_slot_sub (a b : Counter) (size : RingSize) :
    a.distance b size.slots =
      (a.slot size.slots + size.slots - b.slot size.slots) % size.slots := by
  have base : b.slot size.slots < size.slots := slot_lt b size.pos
  have reached : a.slot size.slots = (b.slot size.slots + a.past b) % size.slots := by
    rw [← slot_advance, advance_past]
  have turned : b.slot size.slots + a.past b + (size.slots - b.slot size.slots) =
      a.past b + size.slots := by omega
  calc a.distance b size.slots
      = (a.past b + size.slots) % size.slots := (Nat.add_mod_right _ _).symm
    _ = ((b.slot size.slots + a.past b) % size.slots + (size.slots - b.slot size.slots)) %
          size.slots := by rw [Nat.mod_add_mod, turned]
    _ = (a.slot size.slots + size.slots - b.slot size.slots) % size.slots := by
      rw [← reached, Nat.add_sub_assoc base.le]

/-- **Two counters that are less than a turn of the ring apart share a slot only if they are
equal.** -/
theorem slot_eq_iff_of_past_lt {a b : Counter} {size : RingSize} (near : a.past b < size.slots) :
    a.slot size.slots = b.slot size.slots ↔ a = b := by
  refine ⟨fun same => ?_, fun same => by rw [same]⟩
  have slots : (b.advance (a.past b)).slot size.slots = (b.advance 0).slot size.slots := by
    rw [advance_past, advance_zero, same]
  have none := slot_advance_inj b size near size.pos slots
  rw [← advance_past b a, none, advance_zero]

/-- A counter lies in a window exactly if it has not run past the window's end. -/
theorem past_le_iff {a b : Counter} {n : Nat} (short : n < span) :
    a.past b ≤ n ↔ ∃ k ≤ n, a = b.advance k := by
  constructor
  · intro inside
    exact ⟨a.past b, inside, (advance_past b a).symm⟩
  · rintro ⟨k, inside, rfl⟩
    rw [past_advance b (lt_of_le_of_lt inside short)]
    exact inside

end Counter

open Counter

/-- **The arithmetic of a ring is arithmetic modulo its size**, for every size that is admitted,
every counter and every number of steps, those of more than a turn of the counters included. -/
theorem ring_arithmetic_is_modular (size : RingSize) :
    size.slots ∣ span ∧
      (∀ (a : Counter) (n : Nat),
        (a.advance n).slot size.slots = (a.slot size.slots + n) % size.slots) ∧
      (∀ (b : Counter) (n : Nat), (b.advance n).distance b size.slots = n % size.slots) ∧
      (∀ a b : Counter, a.distance b size.slots =
        (a.slot size.slots + size.slots - b.slot size.slots) % size.slots) ∧
      ∀ a b : Counter, a.past b < size.slots ∧ a.slot size.slots = b.slot size.slots ↔ a = b := by
  refine ⟨size.dvd_span, fun a n => a.slot_advance size n,
    fun b n => b.distance_advance_self size n, fun a b => a.distance_eq_slot_sub b size,
    fun a b => ⟨fun ⟨near, same⟩ => ?_, ?_⟩⟩
  · exact (slot_eq_iff_of_past_lt near).mp same
  · rintro rfl
    exact ⟨by rw [past_self]; exact size.pos, rfl⟩

/-- The last counter is one step before the first, and a step of a whole turn and three more is a
step of three. -/
example : (advance 65535 65539).slot 32768 = 2 ∧
    (advance 65535 65539).distance 65535 32768 = 3 := by decide

/-- **Both ways of asking whether a packet is done have the same answer.** The window holds
`inFlight` descriptors from the counter `reclaim` on, which leaves one slot empty at least; the last
descriptor of the packet is `last` places on, and `consumed` descriptors were consumed.  And a
reading of the adapter's counter is beyond the window exactly if it is none of the counters from
`reclaim` up to the producer. -/
theorem done_checks_agree (size : RingSize) (reclaim : Counter) {inFlight last consumed : Nat}
    (room : inFlight ≤ size.slots - 1) (posted : last < inFlight) (behind : consumed ≤ inFlight) :
    ((reclaim.advance inFlight).distance (reclaim.advance last) size.slots >
          (reclaim.advance inFlight).distance (reclaim.advance consumed) size.slots ↔
        (reclaim.advance last).distance reclaim size.slots <
          (reclaim.advance consumed).distance reclaim size.slots) ∧
      ((reclaim.advance last).distance reclaim size.slots <
          (reclaim.advance consumed).distance reclaim size.slots ↔ last < consumed) ∧
      ∀ reading : Counter, reading.past reclaim > inFlight ↔
        ∀ k ≤ inFlight, reading ≠ reclaim.advance k := by
  have least := size.two_le
  have most := size.slots_le
  have fromLast : (reclaim.advance inFlight).distance (reclaim.advance last) size.slots =
      inFlight - last := reclaim.distance_advance_advance size posted.le (by omega)
  have fromConsumed : (reclaim.advance inFlight).distance (reclaim.advance consumed) size.slots =
      inFlight - consumed := reclaim.distance_advance_advance size behind (by omega)
  have toLast : (reclaim.advance last).distance reclaim size.slots = last :=
    reclaim.distance_advance size (by omega)
  have toConsumed : (reclaim.advance consumed).distance reclaim size.slots = consumed :=
    reclaim.distance_advance size (by omega)
  rw [fromLast, fromConsumed, toLast, toConsumed]
  refine ⟨by omega, Iff.rfl, fun reading => ?_⟩
  have short : inFlight < span := lt_of_lt_of_le (by omega) (by decide : 32768 ≤ span)
  rw [gt_iff_lt, ← Nat.not_le, past_le_iff short]
  simp

/-- The largest ring is full but for its one empty slot, and the counters wrap right behind its
oldest descriptor.  The adapter has consumed all but the last one, so a packet that ends just before
that is done, whichever way it is asked. -/
theorem done_checks_agree_full : ∃ size : RingSize, size.slots = 32768 ∧ 32767 ≤ size.slots - 1 ∧
    (advance 65535 32767).distance (advance 65535 32765) size.slots >
      (advance 65535 32767).distance (advance 65535 32766) size.slots ∧
    (advance 65535 32765).distance 65535 size.slots <
      (advance 65535 32766).distance 65535 size.slots ∧
    ∀ reading : Counter, reading.past 65535 > 32767 ↔
      ∀ k ≤ 32767, reading ≠ advance 65535 k := by
  obtain ⟨same, done, window⟩ := @done_checks_agree ⟨32768, by decide⟩ 65535 32767 32765 32766
    (by decide) (by decide) (by decide)
  have ahead := done.mpr (by decide)
  exact ⟨⟨32768, by decide⟩, rfl, by decide, same.mpr ahead, ahead, window⟩

end DescriptorRings
