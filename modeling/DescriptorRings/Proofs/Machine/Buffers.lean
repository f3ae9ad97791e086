import DescriptorRings.Proofs.Machine.Grants

/-!
# Buffers apart

The driver knows the buffers of a pool by their addresses, and takes it for granted that no two of
them share memory (`BufferPool.Apart`).  This is the allocator's part of the bargain.  A pool that
is made by `createPool` has the property as soon as its blocks were put at different addresses:
they have numbers of their own then, and follow one another.
-/

namespace DescriptorRings

open List

/-- No two buffers of a pool lie in one block. -/
def BufferPool.Apart (p : BufferPool) (mem : Memory) : Prop :=
  ∀ b c : BufferId, b.index < p.capacity → c.index < p.capacity →
    mem.blockAt? (p.base b) = mem.blockAt? (p.base c) → b = c

namespace BufferPool.Apart

variable {p p' : BufferPool} {mem mem' : Memory}

theorem kept (h : p.Apart mem) (kept : p.Kept p') : p'.Apart mem := by
  intro b c hb hc same
  rw [kept.capacity] at hb hc
  rw [kept.base, kept.base] at same
  exact h b c hb hc same

theorem congr (h : p.Apart mem) (blocks : ∀ a, mem'.blockAt? a = mem.blockAt? a) :
    p.Apart mem' := by
  intro b c hb hc same
  rw [blocks, blocks] at same
  exact h b c hb hc same

/-- **What is stored in one buffer is not seen in another.** -/
theorem load_store (h : p.Apart mem) {b c : BufferId} (hb : b.index < p.capacity)
    (hc : c.index < p.capacity) (ne : b ≠ c) (offset : Nat) (data : List UInt8) :
    (mem.store (p.base c) offset data).load (p.base b) = mem.load (p.base b) :=
  Memory.load_store_of_ne (fun same => ne (h b c hb hc same)) offset data

end BufferPool.Apart

/-! ## Pools that are made -/

/-- **The buffers of a pool over blocks that follow one another lie apart.** -/
theorem BufferPool.apart_ofAddresses (id : UInt16) (layout : Layout) {mem : Memory} {first : Nat}
    {as : List BusAddress} (names : mem.Names first as) :
    (ofAddresses id layout as).Apart mem := by
  have block (b : BufferId) (hb : b.index < (ofAddresses id layout as).capacity) :
      mem.blockAt? ((ofAddresses id layout as).base b) = some (first + b.index) := by
    have hb : b.index < as.length := by
      simpa [capacity, ofAddresses] using hb
    refine names b.index _ ?_
    simp [base, ofAddresses, Array.getD_eq_getD_getElem?, hb]
  intro b c hb hc same
  rw [block b hb, block c hc] at same
  have index : b.index = c.index := Nat.add_left_cancel (Option.some.inj same)
  obtain ⟨b⟩ := b
  obtain ⟨c⟩ := c
  exact congrArg BufferId.mk (UInt16.toNat_inj.mp index)

namespace Machine

/-- **The buffers of a pool that is made lie apart**, if the allocator has put no two of them at one
address. -/
theorem apart_createPool {m m' : Machine} {count size align place : Nat}
    (made : m.createPool count size align = (.ok place, m')) :
    ∃ p, m'.poolAt? place = some p ∧ (p.addresses.Nodup → p.Apart m'.memory) := by
  obtain ⟨rfl, -, layout, id, as, k, -, -, granted, rfl⟩ := createPool_eq_ok made
  refine ⟨.ofAddresses id layout as, ?_, fun distinct => ?_⟩
  · rw [poolAt?]
    dsimp only
    rw [Array.getElem?_push_size]
    rfl
  · have addresses := BufferPool.addresses_ofAddresses id layout as
    obtain ⟨j, scene⟩ := k.exists_toScene_give (.poolCreated id count size)
    dsimp only
    rw [scene]
    exact BufferPool.apart_ofAddresses id layout (granted.names (addresses ▸ distinct))

end Machine

end DescriptorRings
