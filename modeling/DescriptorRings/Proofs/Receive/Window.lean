import DescriptorRings.Proofs.Counter.Window
import DescriptorRings.Receive.Ring
import Mathlib.Data.List.Perm.Basic

/-!
# The window of a receive ring

The buffers of a receive ring lie in its slots, one in each slot from the consumer counter up to the
producer counter and none in the others.  `Holds` says so, and names the buffers in order.  Passing
a slot takes the first of them out, posting adds one at the end, and clearing takes out all.

The ring itself reads its buffers off in the order of the slots (`RxRing.held`), which begins
somewhere in the middle of the window; the two lists agree up to their order.
-/

namespace DescriptorRings

open List

/-! ## Lists with empty places -/

section Places

variable {α : Type} {xs : List (Option α)} {i : Nat} {a : α}

theorem filterMap_set (inside : i < xs.length) (x : Option α) :
    (xs.set i x).filterMap id ~
      x.toList ++ ((xs.take i).filterMap id ++ (xs.drop (i + 1)).filterMap id) := by
  rw [set_eq_take_append_cons_drop, if_pos inside, filterMap_append]
  cases x with
  | none => exact .refl _
  | some a => exact perm_middle

theorem set_of_getElem? {x : Option α} (h : xs[i]? = some x) : xs.set i x = xs := by
  obtain ⟨inside, rfl⟩ := List.getElem?_eq_some_iff.mp h
  exact set_getElem_self inside

/-- Emptying a place takes out what was in it. -/
theorem perm_set_none (h : xs[i]? = some (some a)) :
    xs.filterMap id ~ a :: (xs.set i none).filterMap id := by
  have inside := (List.getElem?_eq_some_iff.mp h).1
  have before := filterMap_set inside (some a)
  rw [set_of_getElem? h] at before
  exact before.trans ((filterMap_set inside none).symm.cons a)

/-- Filling an empty place adds what is put into it. -/
theorem perm_set_some (h : xs[i]? = some none) :
    (xs.set i (some a)).filterMap id ~ a :: xs.filterMap id := by
  have inside := (List.getElem?_eq_some_iff.mp h).1
  have before := filterMap_set inside none
  rw [set_of_getElem? h] at before
  exact (filterMap_set inside (some a)).trans (before.symm.cons a)

end Places

namespace RxRing

/-! ## What a ring holds -/

/-- The buffers in the slots of a ring, from the consumer counter up to the producer counter. -/
structure Holds (r : RxRing) (bs : List BufferId) : Prop where
  /-- There are as many slots as the size says. -/
  width : r.slots.size = r.size.slots
  /-- One slot stays empty. -/
  fits : bs.length ≤ r.capacity
  /-- The window is as long as there are buffers. -/
  producer : r.producer = r.consumer.advance bs.length
  /-- The slots of the window hold the buffers, in order. -/
  filled : Counter.Spread r.size r.bufferAt? r.consumer bs
  /-- The other slots are empty. -/
  empty : ∀ n, bs.length ≤ n → n < r.size.slots →
    r.bufferAt? ((r.consumer.advance n).slot r.size.slots) = none
  /-- In the order of the slots they are the same buffers. -/
  held : r.held ~ bs

variable {r r' : RxRing} {bs : List BufferId} {b : BufferId}

/-- What a slot holds after it or another one was set. -/
theorem getD_setIfInBounds (slots : Array (Option BufferId)) {i : Nat} (inside : i < slots.size)
    (x : Option BufferId) (j : Nat) :
    (slots.setIfInBounds i x).getD j none = if j = i then x else slots.getD j none := by
  rw [Array.getD_eq_getD_getElem?, Array.getD_eq_getD_getElem?, Array.getElem?_setIfInBounds]
  by_cases same : j = i
  · rw [if_pos same, if_pos same.symm, if_pos inside]
    rfl
  · rw [if_neg same, if_neg (Ne.symm same)]

theorem toList_getElem?_of_bufferAt? {i : Nat} (inside : i < r.slots.size) {x : Option BufferId}
    (h : r.bufferAt? i = x) : r.slots.toList[i]? = some x := by
  rw [Array.getElem?_toList, Array.getElem?_eq_getElem inside, ← h, bufferAt?,
    Array.getD_eq_getD_getElem?, Array.getElem?_eq_getElem inside]
  rfl

/-- A buffer in a slot is held. -/
theorem mem_held_of_bufferAt? {i : Nat} (h : r.bufferAt? i = some b) : b ∈ r.held := by
  rw [bufferAt?, Array.getD_eq_getD_getElem?] at h
  refine mem_filterMap.mpr ⟨some b, ?_, rfl⟩
  cases hs : r.slots[i]? with
  | none => rw [hs] at h; exact absurd h (Option.some_ne_none _).symm
  | some c =>
    rw [hs] at h
    obtain rfl : c = some b := h
    rw [← Array.getElem?_toList] at hs
    exact mem_of_getElem? hs

namespace Holds

theorem length_lt (h : r.Holds bs) : bs.length < r.size.slots :=
  Nat.lt_of_le_of_lt h.fits r.size.capacity_lt

theorem length_lt_span (h : r.Holds bs) : bs.length < Counter.span :=
  Nat.lt_trans h.length_lt (Nat.lt_of_le_of_lt r.size.slots_le (by decide))

/-- The producer counter has run past the consumer counter by the number of buffers. -/
theorem past_eq (h : r.Holds bs) : r.producer.past r.consumer = bs.length := by
  rw [h.producer]
  exact Counter.past_advance _ h.length_lt_span

theorem posted_eq (h : r.Holds bs) : r.posted = bs.length := by
  rw [posted, h.producer]
  exact Counter.distance_advance _ _ h.length_lt

/-- Nothing but the counts has changed. -/
theorem congr (h : r.Holds bs) (size : r'.size = r.size) (slots : r'.slots = r.slots)
    (consumer : r'.consumer = r.consumer) (producer : r'.producer = r.producer) : r'.Holds bs := by
  obtain ⟨pool, size', pad, c, p, slots', phase, stats⟩ := r'
  obtain rfl : size' = r.size := size
  obtain rfl : slots' = r.slots := slots
  obtain rfl : c = r.consumer := consumer
  obtain rfl : p = r.producer := producer
  exact ⟨h.width, h.fits, h.producer, h.filled, h.empty, h.held⟩

theorem slot_lt (h : r.Holds bs) (c : Counter) : c.slot r.size.slots < r.slots.size := by
  rw [h.width]
  exact Counter.slot_lt c r.size.pos

/-- The oldest slot holds the first buffer. -/
theorem bufferAt?_headSlot (h : r.Holds (b :: bs)) : r.bufferAt? r.headSlot = some b := by
  have first := h.filled 0 b rfl
  rwa [Counter.advance_zero] at first

/-- The next slot to fill is empty. -/
theorem bufferAt?_tailSlot (h : r.Holds bs) : r.bufferAt? r.tailSlot = none := by
  have last := h.empty bs.length (Nat.le_refl _) h.length_lt
  rwa [← h.producer] at last

/-- Passing a slot takes out the first buffer. -/
theorem pass (h : r.Holds (b :: bs)) : r.pass.Holds bs := by
  have inside := h.slot_lt r.consumer
  have at? (j : Nat) : r.pass.bufferAt? j = if j = r.headSlot then none else r.bufferAt? j :=
    getD_setIfInBounds r.slots inside none j
  have fits : bs.length + 1 ≤ r.capacity := h.fits
  have lt := r.size.capacity_lt
  refine ⟨?_, Nat.le_trans (Nat.le_succ _) h.fits, ?_, fun i c hi => ?_, fun n hn hlt => ?_, ?_⟩
  · exact (size_slots_pass r).trans h.width
  · show r.producer = (r.consumer.advance 1).advance bs.length
    rw [h.producer, Counter.advance_advance, Nat.add_comm 1]
    rfl
  · have short := (List.getElem?_eq_some_iff.mp hi).1
    have later : ((r.consumer.advance 1).advance i).slot r.size.slots ≠ r.headSlot := by
      intro same
      rw [Counter.advance_advance, headSlot, ← Counter.advance_zero r.consumer,
        Counter.advance_advance] at same
      have := Counter.slot_advance_inj r.consumer r.size
        (by unfold capacity at fits; omega) (by omega) same
      omega
    show r.pass.bufferAt? (((r.consumer.advance 1).advance i).slot r.size.slots) = some c
    rw [at?, if_neg later, Counter.advance_advance, Nat.add_comm 1]
    exact h.filled (i + 1) c hi
  · show r.pass.bufferAt? (((r.consumer.advance 1).advance n).slot r.size.slots) = none
    rw [at?]
    split
    · rfl
    · rename_i later
      have hlt : n < r.size.slots := hlt
      have wraps : n + 1 ≠ r.size.slots := by
        intro full
        apply later
        rw [Counter.advance_advance, Nat.add_comm 1, full, Counter.slot_advance, headSlot,
          Nat.add_mod_right]
        exact Nat.mod_eq_of_lt (Counter.slot_lt _ r.size.pos)
      rw [Counter.advance_advance, Nat.add_comm 1]
      exact h.empty (n + 1) (Nat.succ_le_succ hn) (by omega)
  · have place := toList_getElem?_of_bufferAt? inside h.bufferAt?_headSlot
    have taken : r.held ~ b :: r.pass.held := by
      have perm := perm_set_none place
      rwa [← Array.toList_setIfInBounds] at perm
    exact (taken.symm.trans h.held).cons_inv

/-- Posting adds a buffer at the end. -/
theorem post (h : r.Holds bs) (room : bs.length < r.capacity) (b : BufferId) :
    (r.post b).Holds (bs ++ [b]) := by
  have inside := h.slot_lt r.producer
  have at? (j : Nat) : (r.post b).bufferAt? j = if j = r.tailSlot then some b else r.bufferAt? j :=
    getD_setIfInBounds r.slots inside (some b) j
  have tail : r.tailSlot = (r.consumer.advance bs.length).slot r.size.slots := by
    rw [← h.producer, tailSlot]
  refine ⟨?_, ?_, ?_, ?_, fun n hn hlt => ?_, ?_⟩
  · exact (size_slots_post r b).trans h.width
  · rw [length_append, length_singleton]
    exact room
  · show r.producer.advance 1 = r.consumer.advance (bs ++ [b]).length
    rw [h.producer, Counter.advance_advance, length_append, length_singleton]
  · refine h.filled.concat h.length_lt ?_ fun j hj => ?_
    · rw [at?, if_pos tail.symm]
    · rw [at?, if_neg (by rwa [tail])]
  · rw [length_append, length_singleton] at hn
    show (r.post b).bufferAt? ((r.consumer.advance n).slot r.size.slots) = none
    have later : (r.consumer.advance n).slot r.size.slots ≠ r.tailSlot := by
      intro same
      rw [tail] at same
      have := Counter.slot_advance_inj r.consumer r.size hlt h.length_lt same
      omega
    rw [at?, if_neg later]
    exact h.empty n (by omega) hlt
  · have place := toList_getElem?_of_bufferAt? inside h.bufferAt?_tailSlot
    have added : (r.post b).held ~ b :: r.held := by
      have perm := perm_set_some (a := b) place
      rwa [← Array.toList_setIfInBounds] at perm
    exact (added.trans (h.held.cons b)).trans (perm_append_singleton b bs).symm

/-- Clearing takes out all buffers. -/
theorem clear (h : r.Holds bs) : r.clear.Holds [] := by
  have vacant (j : Nat) : r.clear.bufferAt? j = none := by
    show (r.slots.map fun _ => none).getD j none = none
    rw [Array.getD_eq_getD_getElem?, Array.getElem?_map]
    cases r.slots[j]? <;> rfl
  refine ⟨?_, Nat.zero_le _, (Counter.advance_zero _).symm, .nil _ _ _, fun n _ _ => vacant _, ?_⟩
  · exact (size_slots_clear r).trans h.width
  · rw [held_clear]

/-- An empty window may begin anywhere. -/
theorem resync (h : r.Holds []) (c : Counter) : (r.resync c).Holds [] := by
  refine ⟨h.width, h.fits, (Counter.advance_zero _).symm, .nil _ _ _, fun n _ hn => ?_, h.held⟩
  obtain ⟨k, hk, same⟩ :=
    Counter.exists_slot_advance r.consumer r.size (Counter.slot_lt (c.advance n) r.size.pos)
  show r.bufferAt? ((c.advance n).slot r.size.slots) = none
  rw [← same]
  exact h.empty k (Nat.zero_le _) hk

end Holds

/-- A new ring is empty. -/
theorem create_eq_ok {pool bufferSize slots pad : Nat} {r : RxRing}
    (h : create pool bufferSize slots pad = .ok r) :
    ∃ size : RingSize, size.slots = slots ∧
      r = { pool := pool, size := size, pad := pad, slots := Array.replicate slots none } := by
  unfold create RingSize.ofNat? at h
  split at h
  · exact absurd h (by simp)
  · rename_i size hsize
    split at hsize
    · obtain rfl := Option.some.inj hsize
      split at h
      · exact absurd h (by simp)
      · exact ⟨_, rfl, (Except.ok.inj h).symm⟩
    · exact absurd hsize (Option.some_ne_none size).symm

/-- So it holds nothing. -/
theorem holds_create {pool bufferSize slots pad : Nat} {r : RxRing}
    (h : create pool bufferSize slots pad = .ok r) :
    r.Holds [] ∧ r.pool = pool ∧ r.size.slots = slots := by
  obtain ⟨size, rfl, rfl⟩ := create_eq_ok h
  have vacant (j : Nat) :
      (Array.replicate size.slots (none : Option BufferId)).getD j none = none := by
    rw [Array.getD_eq_getD_getElem?, Array.getElem?_replicate]
    split <;> rfl
  have held : (Array.replicate size.slots (none : Option BufferId)).toList.filterMap id = [] := by
    rw [Array.toList_replicate, filterMap_eq_nil_iff]
    intro x hx
    exact eq_of_mem_replicate hx
  exact ⟨⟨Array.size_replicate, Nat.zero_le _, (Counter.advance_zero _).symm, .nil _ _ _,
    fun n _ _ => vacant _, by rw [RxRing.held, held]⟩, rfl, rfl⟩

theorem phase_create {pool bufferSize slots pad : Nat} {r : RxRing}
    (h : create pool bufferSize slots pad = .ok r) : r.phase = .stopped := by
  obtain ⟨size, -, rfl⟩ := create_eq_ok h
  rfl

theorem stats_create {pool bufferSize slots pad : Nat} {r : RxRing}
    (h : create pool bufferSize slots pad = .ok r) : r.stats = {} := by
  obtain ⟨size, -, rfl⟩ := create_eq_ok h
  rfl

end RxRing

end DescriptorRings
