import DescriptorRings.Counter
import Mathlib.Data.Nat.ModEq

/-!
# Windows of counters

Everything that a ring holds lies in a *window*: the counters from some base counter up to a later
one.  A window is given by its base and its length, and a counter in it by its offset, a plain
natural below `65536`.  This file turns the arithmetic of counters into arithmetic of offsets.

* `past_advance_advance` and `distance_advance_advance`: inside a window the two readings of a
  difference are the difference of the offsets;
* `advance_past`: every counter has an offset from every other one;
* `slot_advance_inj`: inside a window that is no longer than the ring, different counters have
  different slots;
* `Spread`: what is written into the slots of a window stays there while the window moves on.

The first two are what lets the rings compare counters at all.  The third one is what keeps the
entries of a window apart, and it is the only place where the size of a ring has to divide the span
of the counters.
-/

namespace DescriptorRings

/-! ## Sizes -/

namespace RingSize

theorem pos (size : RingSize) : 0 < size.slots := by
  have := size.two_le
  omega

theorem eq_of_slots_eq {a b : RingSize} (h : a.slots = b.slots) : a = b := by
  cases a
  cases b
  obtain rfl := h
  rfl

/-- The wrap of the ring and the wrap of the counter never disagree. -/
theorem dvd_span (size : RingSize) : size.slots ∣ Counter.span := by
  obtain ⟨⟨k, hk⟩, -, hle⟩ := validRingSize_iff.mp size.valid
  have hspan : Counter.span = 2 ^ 16 := rfl
  rw [Nat.one_shiftLeft] at hk
  rw [hk, hspan]
  refine Nat.pow_dvd_pow 2 ?_
  have hlt : 2 ^ k < 2 ^ 16 := by
    rw [← hk]
    exact lt_of_le_of_lt hle (by decide)
  exact le_of_lt ((Nat.pow_lt_pow_iff_right (by decide)).mp hlt)

end RingSize

namespace Counter

/-! ## Offsets -/

theorem toNat_advance (c : Counter) (n : Nat) : (c.advance n).toNat = (c.toNat + n) % span := by
  rw [advance, UInt16.toNat_add, UInt16.toNat_ofNat', Nat.add_mod_mod]
  rfl

theorem toNat_lt_span (c : Counter) : c.toNat < span := c.toNat_lt

/-- How far a counter has run past another one is less than a whole turn. -/
theorem past_lt (a b : Counter) : a.past b < span := toNat_lt_span _

@[simp] theorem past_self (c : Counter) : c.past c = 0 := by
  simp [past]

/-- The counter that has run as far past `c` as `d` has is `d`. -/
@[simp] theorem advance_past (c d : Counter) : c.advance (d.past c) = d := by
  rw [advance, past, UInt16.ofNat_toNat, UInt16.add_comm, UInt16.sub_add_cancel]

/-- Inside a window the whole difference of two counters is that of their offsets. -/
theorem past_advance_advance (c : Counter) {h l : Nat} (hl : h ≤ l) (hs : l - h < span) :
    (c.advance l).past (c.advance h) = l - h := by
  have hsub : c.advance l = (c.advance h).advance (l - h) := by
    rw [advance_advance, Nat.add_sub_cancel' hl]
  rw [hsub, past, advance, UInt16.add_comm, UInt16.add_sub_cancel, UInt16.toNat_ofNat']
  exact Nat.mod_eq_of_lt hs

theorem past_advance (c : Counter) {n : Nat} (h : n < span) : (c.advance n).past c = n := by
  have := past_advance_advance c (Nat.zero_le n) (by rwa [Nat.sub_zero])
  rwa [advance_zero, Nat.sub_zero] at this

/-- Inside a window that is shorter than the ring, so is their distance on the ring. -/
theorem distance_advance_advance (c : Counter) (size : RingSize) {h l : Nat} (hl : h ≤ l)
    (hs : l - h < size.slots) :
    (c.advance l).distance (c.advance h) size.slots = l - h := by
  have hspan : l - h < span := lt_of_lt_of_le hs (le_trans size.slots_le (by decide))
  have hpast := past_advance_advance c hl hspan
  rw [past] at hpast
  rw [distance, hpast]
  exact Nat.mod_eq_of_lt hs

theorem distance_advance (c : Counter) (size : RingSize) {n : Nat} (h : n < size.slots) :
    (c.advance n).distance c size.slots = n := by
  have := distance_advance_advance c size (Nat.zero_le n) (by rwa [Nat.sub_zero])
  rwa [advance_zero, Nat.sub_zero] at this

theorem advance_cancel {c d : Counter} {n : Nat} (h : c.advance n = d.advance n) : c = d := by
  have := congrArg (· - UInt16.ofNat n) h
  rwa [advance, advance, UInt16.add_sub_cancel, UInt16.add_sub_cancel] at this

/-- Two ways to the same counter, the first of them no shorter, differ in where they begin. -/
theorem eq_advance_sub {c d : Counter} {l u : Nat} (h : c.advance l = d.advance u) (hu : u ≤ l) :
    d = c.advance (l - u) := by
  refine advance_cancel (n := u) ?_
  rw [← h, advance_advance, Nat.sub_add_cancel hu]

/-- The counter before the one `n + 1` places on is the one `n` places on. -/
theorem advance_succ_sub_one (c : Counter) (n : Nat) : c.advance (n + 1) - 1 = c.advance n := by
  rw [← advance_advance, advance]
  exact UInt16.add_sub_cancel _ _

/-! ## Slots -/

theorem slot_advance (c : Counter) (size : RingSize) (n : Nat) :
    (c.advance n).slot size.slots = (c.slot size.slots + n) % size.slots := by
  rw [slot, slot, toNat_advance, Nat.mod_mod_of_dvd _ size.dvd_span, Nat.mod_add_mod]

/-- Inside a window that is no longer than the ring, different counters have different slots. -/
theorem slot_advance_inj (c : Counter) (size : RingSize) {i j : Nat} (hi : i < size.slots)
    (hj : j < size.slots)
    (h : (c.advance i).slot size.slots = (c.advance j).slot size.slots) : i = j := by
  rw [slot_advance, slot_advance] at h
  have hmod : i ≡ j [MOD size.slots] := Nat.ModEq.add_left_cancel' _ h
  exact hmod.eq_of_lt_of_lt hi hj

/-- From any counter on, each slot comes up within a turn of the ring. -/
theorem exists_slot_advance (c : Counter) (size : RingSize) {s : Nat} (h : s < size.slots) :
    ∃ n < size.slots, (c.advance n).slot size.slots = s := by
  have base := slot_lt c size.pos
  refine ⟨(s + (size.slots - c.slot size.slots)) % size.slots, Nat.mod_lt _ size.pos, ?_⟩
  have turn : c.slot size.slots + (s + (size.slots - c.slot size.slots)) = s + size.slots := by
    omega
  rw [slot_advance, Nat.add_mod_mod, turn, Nat.add_mod_right]
  exact Nat.mod_eq_of_lt h

/-! ## What lies in a window -/

section Spread

variable {α : Type} {size : RingSize} {get get' : Nat → Option α} {base : Counter} {as bs : List α}

/-- The entries of a list lie in the slots of a table, one for each counter from the base on. -/
def Spread (size : RingSize) (get : Nat → Option α) (base : Counter) (as : List α) : Prop :=
  ∀ i a, as[i]? = some a → get ((base.advance i).slot size.slots) = some a

theorem Spread.nil (size : RingSize) (get : Nat → Option α) (base : Counter) :
    Spread size get base [] := by
  intro i a h
  exact absurd h (by simp)

/-- The base may pass the first entries. -/
theorem Spread.drop (h : Spread size get base (as ++ bs)) :
    Spread size get (base.advance as.length) bs := by
  intro i b hb
  rw [advance_advance]
  refine h _ b ?_
  rw [List.getElem?_append_right (Nat.le_add_right _ _), Nat.add_sub_cancel_left]
  exact hb

/-- The last entries may be forgotten. -/
theorem Spread.take (h : Spread size get base (as ++ bs)) : Spread size get base as := by
  intro i a ha
  refine h i a ?_
  rw [List.getElem?_append_left (List.getElem?_eq_some_iff.mp ha).1]
  exact ha

/-- **Writing the slot after the last entry adds an entry**, as long as the window is shorter than
the ring: no entry lies in that slot. -/
theorem Spread.concat (h : Spread size get base as) (room : as.length < size.slots) {a : α}
    (written : get' ((base.advance as.length).slot size.slots) = some a)
    (others : ∀ s, s ≠ (base.advance as.length).slot size.slots → get' s = get s) :
    Spread size get' base (as ++ [a]) := by
  intro i b hb
  by_cases hi : i < as.length
  · rw [List.getElem?_append_left hi] at hb
    rw [others _ fun same => hi.ne (slot_advance_inj base size (hi.trans room) room same)]
    exact h i b hb
  · have hlast : i = as.length := by
      have := (List.getElem?_eq_some_iff.mp hb).1
      rw [List.length_append, List.length_singleton] at this
      omega
    rw [hlast, List.getElem?_concat_length] at hb
    rw [hlast, written, hb]

/-- What is read at the slots alone matters. -/
theorem Spread.congr (h : Spread size get base as) (same : ∀ s, get' s = get s) :
    Spread size get' base as := by
  intro i a ha
  rw [same]
  exact h i a ha

end Spread

end Counter

end DescriptorRings
