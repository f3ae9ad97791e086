import DescriptorRings.MachineWord

/-!
# Free-running counters and the slots they address

Software and the adapter never exchange slot numbers.  They exchange *counters*: sixteen-bit words
that only ever move forward and wrap at `65536`.  A ring of `size` slots is addressed by the
remainder of a counter, and because every admitted size divides `65536` the wrap of the counter
and the wrap of the ring never disagree.

Two readings of a difference occur.  `distance` takes it modulo the ring and answers "how many
slots lie between"; the bare subtraction takes it modulo `65536` and answers "how far did this
counter run", which is the only one that can tell a full turn from no turn at all.

Sizes are plain naturals in the arithmetic, because the arithmetic is also asked about sizes that
no ring has; `RingSize` is a size that has passed the test.
-/

namespace DescriptorRings

/-! ## Powers of two and admitted sizes -/

/-- A power of two is the number that its binary logarithm rebuilds. -/
def isPowerOfTwo (n : Nat) : Bool := 1 <<< n.log2 == n

/-- The least number of slots of a ring: one slot always stays empty, so one would hold nothing. -/
def minRingSize : Nat := 2

/-- The greatest number of slots of a ring: half a turn of a counter. -/
def maxRingSize : Nat := 32768

/-- A ring has a power of two of slots, between the least and the greatest number. -/
def validRingSize (n : Nat) : Bool :=
  isPowerOfTwo n && (decide (minRingSize ≤ n) && decide (n ≤ maxRingSize))

theorem isPowerOfTwo_iff {n : Nat} : isPowerOfTwo n = true ↔ ∃ k, n = 1 <<< k := by
  constructor
  · intro h
    exact ⟨n.log2, (beq_iff_eq.mp h).symm⟩
  · rintro ⟨k, rfl⟩
    simp [isPowerOfTwo, Nat.one_shiftLeft, Nat.log2_two_pow]

theorem validRingSize_iff {n : Nat} :
    validRingSize n = true ↔ (∃ k, n = 1 <<< k) ∧ minRingSize ≤ n ∧ n ≤ maxRingSize := by
  simp [validRingSize, isPowerOfTwo_iff]

/-- The number of slots of a ring, known to be admitted. -/
structure RingSize where
  /-- How many slots there are. -/
  slots : Nat
  /-- The number passed the test. -/
  valid : validRingSize slots = true
  deriving DecidableEq, Repr

namespace RingSize

/-- Admits a number of slots, or refuses it. -/
def ofNat? (n : Nat) : Option RingSize :=
  if h : validRingSize n = true then some ⟨n, h⟩ else none

/-- One slot stays empty, so that a full ring and an empty one have different counters. -/
def capacity (size : RingSize) : Nat := size.slots - 1

theorem two_le (size : RingSize) : 2 ≤ size.slots := (validRingSize_iff.mp size.valid).2.1

theorem slots_le (size : RingSize) : size.slots ≤ 32768 := (validRingSize_iff.mp size.valid).2.2

theorem capacity_lt (size : RingSize) : size.capacity < size.slots := by
  have := size.two_le
  unfold capacity
  omega

@[simp] theorem ofNat?_slots (size : RingSize) : ofNat? size.slots = some size := by
  simp [ofNat?, size.valid]

end RingSize

/-! ## Counters -/

/-- A sixteen-bit counter that wraps. -/
abbrev Counter := UInt16

namespace Counter

/-- A counter takes this many values before it comes back. -/
def span : Nat := 65536

/-- The slot that a counter addresses. -/
def slot (c : Counter) (size : Nat) : Nat := c.toNat % size

/-- How many slots a ring holds from counter `b` up to counter `a`. -/
def distance (a b : Counter) (size : Nat) : Nat := (a - b).toNat % size

/-- How far counter `a` has run past counter `b`, up to one whole turn. -/
def past (a b : Counter) : Nat := (a - b).toNat

/-- The counter `n` places on.  Only `n` modulo `65536` matters. -/
def advance (c : Counter) (n : Nat) : Counter := c + UInt16.ofNat n

/-- The slot that a counter addresses, for a size that may be zero. -/
def slot? (c : Counter) (size : Nat) : Except Fault Nat :=
  if size = 0 then .error .zeroDivisor else .ok (c.slot size)

/-- The distance of two counters, for a size that may be zero. -/
def distance? (a b : Counter) (size : Nat) : Except Fault Nat :=
  if size = 0 then .error .zeroDivisor else .ok (a.distance b size)

theorem slot_lt (c : Counter) {size : Nat} (h : 0 < size) : c.slot size < size :=
  Nat.mod_lt _ h

theorem distance_lt (a b : Counter) {size : Nat} (h : 0 < size) : a.distance b size < size :=
  Nat.mod_lt _ h

@[simp] theorem distance_self (c : Counter) (size : Nat) : distance c c size = 0 := by
  simp [distance]

@[simp] theorem advance_zero (c : Counter) : advance c 0 = c := by
  simp [advance]

theorem advance_advance (c : Counter) (m n : Nat) :
    advance (advance c m) n = advance c (m + n) := by
  simp [advance, UInt16.ofNat_add, UInt16.add_assoc]

end Counter

end DescriptorRings
