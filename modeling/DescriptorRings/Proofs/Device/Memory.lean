import DescriptorRings.Device.Adapter

/-!
# Blocks apart

An address names a block, or none.  What is stored under one address can be read back there
(`Block.read_write`), and it cannot be told from what is read under an address that names another
block (`load_store_of_ne`).  Storing makes no blocks, so the name that an address has does not
change by it.  Only a block that is granted gives its address a new name, and no other address one
(`blockAt?_grant_of_ne`).
-/

namespace DescriptorRings

/-- An address is known by its bits. -/
theorem BusAddress.bits_inj {a b : BusAddress} (h : a.bits = b.bits) : a = b := by
  have small (c : BusAddress) : c.toNat < 2 ^ 64 := c.value.toNat_lt
  have same : a.toNat = b.toNat := by
    refine Nat.eq_of_testBit_eq fun i => ?_
    by_cases inside : i < 64
    · exact List.map_inj_left.mp h i (List.mem_range.mpr inside)
    · have wide : 2 ^ 64 ≤ 2 ^ i := Nat.pow_le_pow_right (by decide) (Nat.le_of_not_lt inside)
      rw [Nat.testBit_lt_two_pow (Nat.lt_of_lt_of_le (small a) wide),
        Nat.testBit_lt_two_pow (Nat.lt_of_lt_of_le (small b) wide)]
  obtain ⟨a⟩ := a
  obtain ⟨b⟩ := b
  exact congrArg BusAddress.mk (UInt64.toNat_inj.mp same)

namespace Block

/-- **What was written is what is read**, as long as it fits. -/
theorem read_write {b : Block} {offset : Nat} {data : List UInt8}
    (fits : offset + data.length ≤ b.size) : (b.write offset data).read offset data.length = data := by
  by_cases full : b.size ≤ offset
  · have none : data = [] := List.length_eq_zero_iff.mp (by omega)
    rw [none]
    rfl
  · have whole : data.take (b.size - offset) = data := List.take_of_length_le (by omega)
    have before : (b.read 0 offset).length = offset := b.length_read 0 offset
    rw [write, if_neg full]
    dsimp only
    rw [whole, read, List.append_assoc, List.drop_left' before, List.take_left' rfl]
    simp

end Block

namespace Memory

variable {m : Memory} {a b : BusAddress}

theorem allocate_of_some {l : Layout} (h : m.allocator.answer m.asked m.blocks.size l = some a) :
    m.allocate l = (some a, m.grant l a) := by
  rw [allocate, h]

theorem allocate_of_none {l : Layout} (h : m.allocator.answer m.asked m.blocks.size l = none) :
    m.allocate l = (none, m.refuse) := by
  rw [allocate, h]

/-- The address of a block that is granted names it. -/
theorem blockAt?_grant_self (m : Memory) (l : Layout) (a : BusAddress) :
    (m.grant l a).blockAt? a = some m.blocks.size :=
  Directory.find?_enter_self _ _ _

/-- Every other address names what it named before. -/
theorem blockAt?_grant_of_ne (m : Memory) (l : Layout) (h : b ≠ a) :
    (m.grant l a).blockAt? b = m.blockAt? b :=
  Directory.find?_enter_of_ne _ (fun same => h (BusAddress.bits_inj same)) _

@[simp] theorem blockAt?_modifyAt (m : Memory) (b : BusAddress) (f : Block → Block)
    (a : BusAddress) : (m.modifyAt b f).blockAt? a = m.blockAt? a := by
  unfold modifyAt
  split <;> rfl

@[simp] theorem blockAt?_store (m : Memory) (b : BusAddress) (offset : Nat) (data : List UInt8)
    (a : BusAddress) : (m.store b offset data).blockAt? a = m.blockAt? a :=
  blockAt?_modifyAt m b _ a

/-- **What is stored in one block is not seen in another.** -/
theorem load_store_of_ne (apart : m.blockAt? a ≠ m.blockAt? b) (offset : Nat)
    (data : List UInt8) : (m.store b offset data).load a = m.load a := by
  funext from' length
  unfold load
  rw [blockAt?_store]
  cases ha : m.blockAt? a with
  | none => rfl
  | some k =>
    have same : (m.store b offset data).blocks.getD k default = m.blocks.getD k default := by
      unfold store modifyAt
      cases hb : m.blockAt? b with
      | none => rfl
      | some k' =>
        have ne : k' ≠ k := fun same => apart (by rw [ha, hb, same])
        rw [Array.getD_eq_getD_getElem?, Array.getD_eq_getD_getElem?, Array.getElem?_modify,
          if_neg ne]
    dsimp only
    rw [same]

/-- What was stored in a block that is in use can be read there. -/
theorem load_store {k : Nat} (block : m.blockAt? a = some k) {offset : Nat} {data : List UInt8}
    (live : (m.blocks.getD k default).live = true)
    (fits : offset + data.length ≤ (m.blocks.getD k default).size) :
    (m.store a offset data).load a offset data.length = data := by
  have inside : k < m.blocks.size := by
    refine Nat.lt_of_not_le fun outside => ?_
    rw [Array.getD_eq_getD_getElem?, Array.getElem?_eq_none outside] at live
    exact Bool.false_ne_true live
  have stored : (m.store a offset data).blocks.getD k default =
      (m.blocks.getD k default).write offset data := by
    unfold store modifyAt
    rw [block]
    rw [Array.getD_eq_getD_getElem?, Array.getD_eq_getD_getElem?, Array.getElem?_eq_getElem inside]
      at *
    rw [Array.getElem?_modify, if_pos rfl, Array.getElem?_eq_getElem inside]
    exact if_pos live
  rw [load, blockAt?_store, block]
  dsimp only
  rw [stored]
  exact Block.read_write fits

end Memory

/-- No move makes or unmakes a block. -/
theorem Adapter.blockAt?_store (adapter : Adapter) (mv : Move) (m : Memory) (a : BusAddress) :
    (adapter.store mv m).blockAt? a = m.blockAt? a := by
  have frame (f : Reception) : (adapter.storeFrame f m).blockAt? a = m.blockAt? a := by
    unfold storeFrame
    split
    · exact Memory.blockAt?_store m _ _ _ a
    · rfl
  cases mv with
  | assign | raise | consume | transmit => rfl
  | receive f => exact frame f
  | fill f =>
    unfold store
    dsimp only
    split
    · exact frame f
    · rfl

end DescriptorRings
