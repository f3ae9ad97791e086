/-!
# The right to give back one receive buffer

A buffer that was delivered comes back under a handle.  The handle names the pool, the buffer and
the *generation* of the delivery: each delivery of a buffer has a fresh generation, so that a handle
that was already used, or that belongs to an earlier delivery, matches nothing any more.

A handle travels as one sixty-four-bit word.  The three parts fill the word exactly, so every word
is a handle and every handle is a word.
-/

namespace DescriptorRings

/-- The index of a buffer in its pool. -/
structure BufferId where
  /-- The sixteen bits of the index. -/
  raw : UInt16
  deriving DecidableEq, Repr, Inhabited

namespace BufferId

/-- The index as a natural. -/
def index (b : BufferId) : Nat := b.raw.toNat

/-- The buffer of an index. -/
def ofNat (n : Nat) : BufferId := ⟨UInt16.ofNat n⟩

/-- How an index is shown. -/
def describe (b : BufferId) : String := "BufferId(" ++ toString b.index ++ ")"

theorem index_lt (b : BufferId) : b.index < 65536 := b.raw.toNat_lt

theorem index_inj {a b : BufferId} : a.index = b.index ↔ a = b := by
  cases a
  cases b
  simp [index, UInt16.toNat_inj]

theorem index_ofNat {n : Nat} (h : n < 65536) : (ofNat n).index = n := by
  simp [ofNat, index, Nat.mod_eq_of_lt h]

end BufferId

/-- The right to give back one delivered buffer. -/
structure ReturnHandle where
  /-- The number of the pool. -/
  pool : UInt16
  /-- The buffer in that pool. -/
  buffer : BufferId
  /-- Which delivery of the buffer is meant. -/
  generation : UInt32
  deriving DecidableEq, Repr

namespace ReturnHandle

/-- A handle as one word: the pool in the top sixteen bits, the generation in the middle, the buffer
in the lowest sixteen. -/
def toRaw (h : ReturnHandle) : UInt64 :=
  UInt64.ofNat (h.pool.toNat <<< 48 + h.generation.toNat <<< 16 + h.buffer.index)

/-- The handle of a word. -/
def ofRaw (w : UInt64) : ReturnHandle where
  pool := UInt16.ofNat (w.toNat >>> 48)
  buffer := BufferId.ofNat w.toNat
  generation := UInt32.ofNat (w.toNat >>> 16)

/-- How a handle is shown. -/
def describe (h : ReturnHandle) : String :=
  "ReturnHandle \x7b pool: " ++ toString h.pool.toNat ++ ", index: " ++ toString h.buffer.index
    ++ ", generation: " ++ toString h.generation.toNat ++ " \x7d"

theorem toNat_toRaw (h : ReturnHandle) :
    h.toRaw.toNat = h.pool.toNat <<< 48 + h.generation.toNat <<< 16 + h.buffer.index := by
  have := h.pool.toNat_lt
  have := h.generation.toNat_lt
  have := h.buffer.index_lt
  simp only [toRaw, UInt64.toNat_ofNat']
  omega

@[simp] theorem ofRaw_toRaw (h : ReturnHandle) : ofRaw h.toRaw = h := by
  have hp := h.pool.toNat_lt
  have hg := h.generation.toNat_lt
  have hb := h.buffer.index_lt
  have pool : (h.toRaw.toNat >>> 48) % 2 ^ 16 = h.pool.toNat := by rw [toNat_toRaw]; omega
  have generation : (h.toRaw.toNat >>> 16) % 2 ^ 32 = h.generation.toNat := by
    rw [toNat_toRaw]; omega
  have buffer : h.toRaw.toNat % 2 ^ 16 = h.buffer.raw.toNat := by
    rw [toNat_toRaw]
    unfold BufferId.index at *
    omega
  obtain ⟨p, ⟨b⟩, g⟩ := h
  simp only [ofRaw, BufferId.ofNat, ReturnHandle.mk.injEq, BufferId.mk.injEq, ← UInt16.toNat_inj,
    ← UInt32.toNat_inj, UInt16.toNat_ofNat', UInt32.toNat_ofNat']
  exact ⟨pool, buffer, generation⟩

@[simp] theorem toRaw_ofRaw (w : UInt64) : (ofRaw w).toRaw = w := by
  have hw := w.toNat_lt
  rw [← UInt64.toNat_inj, toNat_toRaw]
  simp only [ofRaw, BufferId.index, BufferId.ofNat, UInt16.toNat_ofNat', UInt32.toNat_ofNat']
  omega

end ReturnHandle

end DescriptorRings
