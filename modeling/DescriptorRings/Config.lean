import DescriptorRings.Counter
import DescriptorRings.Refusal

/-!
# Sizing one adapter's rings and receive pool

A configuration is seven numbers.  Choosing the two ring sizes fixes the others by rule; each can
then be replaced on its own, so that a configuration need not be a sensible one.  `flaw?` finds the
first thing wrong with it, in a fixed order: an inconsistent configuration usually breaks several
rules at once, and callers see one.
-/

namespace DescriptorRings

/-- The static parameters of one adapter. -/
structure Config where
  /-- Transmit descriptors. -/
  txSlots : Nat
  /-- Receive descriptors. -/
  rxSlots : Nat
  /-- Receive buffers in the pool. -/
  bufferCount : Nat
  /-- Bytes in each receive buffer. -/
  bufferSize : Nat
  /-- Alignment of each receive buffer. -/
  bufferAlign : Nat
  /-- Bytes that the adapter leaves in front of each received frame. -/
  leadingPad : Nat
  /-- Most packets that may be submitted and not yet completed. -/
  queueDepth : Nat
  deriving DecidableEq, Repr

namespace Config

/-! ## Default sizing -/

/-- Transmit descriptors where nothing else is asked for. -/
def defaultTxSlots : Nat := 256

/-- Receive descriptors where nothing else is asked for. -/
def defaultRxSlots : Nat := 256

/-- Bytes in a receive buffer where nothing else is asked for. -/
def defaultBufferSize : Nat := 2048

/-- Alignment of a receive buffer where nothing else is asked for. -/
def defaultBufferAlign : Nat := 64

/-- Bytes in front of a frame where nothing else is asked for. -/
def defaultLeadingPad : Nat := 2

/-- Outstanding packets where nothing else is asked for. -/
def defaultQueueDepth : Nat := 1024

/-- The configuration of two ring sizes.  The pool has two buffers for each receive descriptor, so
that a whole ring of frames can be held while reception goes on; the doubling has to fit a word. -/
def ofRingSizes (tx rx : Nat) : Except Fault Config :=
  (Checked.mul 2 rx).map fun count =>
    { txSlots := tx, rxSlots := rx, bufferCount := count, bufferSize := defaultBufferSize,
      bufferAlign := defaultBufferAlign, leadingPad := defaultLeadingPad,
      queueDepth := defaultQueueDepth }

/-- The configuration of the default ring sizes. -/
def standard : Config where
  txSlots := defaultTxSlots
  rxSlots := defaultRxSlots
  bufferCount := 2 * defaultRxSlots
  bufferSize := defaultBufferSize
  bufferAlign := defaultBufferAlign
  leadingPad := defaultLeadingPad
  queueDepth := defaultQueueDepth

/-- Usable transmit slots, of a size that may be zero. -/
def txCapacity (c : Config) : Except Fault Nat := Checked.sub c.txSlots 1

/-- Usable receive slots, of a size that may be zero. -/
def rxCapacity (c : Config) : Except Fault Nat := Checked.sub c.rxSlots 1

/-! ## Choosing a configuration -/

/-- What a caller chooses of a configuration; what is left open follows by rule. -/
structure Choice where
  /-- Transmit descriptors. -/
  tx : Option Nat := none
  /-- Receive descriptors. -/
  rx : Option Nat := none
  /-- Receive buffers. -/
  count : Option Nat := none
  /-- Bytes in a buffer. -/
  size : Option Nat := none
  /-- Alignment of a buffer. -/
  align : Option Nat := none
  /-- Bytes in front of a frame. -/
  pad : Option Nat := none
  /-- Most outstanding packets. -/
  depth : Option Nat := none
  deriving DecidableEq, Repr

namespace Choice

/-- The configuration that the choice of ring sizes alone fixes. -/
def base (c : Choice) : Except Fault Config :=
  match c.tx, c.rx with
  | none, none => .ok standard
  | tx, rx => ofRingSizes (tx.getD defaultTxSlots) (rx.getD defaultRxSlots)

/-- The configuration of a choice: the ring sizes first, then each number chosen on its own. -/
def config (c : Choice) : Except Fault Config :=
  c.base.map fun b =>
    { b with
      bufferCount := c.count.getD b.bufferCount
      bufferSize := c.size.getD b.bufferSize
      bufferAlign := c.align.getD b.bufferAlign
      leadingPad := c.pad.getD b.leadingPad
      queueDepth := c.depth.getD b.queueDepth }

end Choice

/-! ## Consistency -/

/-- What can be wrong with a configuration, or with the parts built from one. -/
inductive Flaw where
  /-- No transmit ring has this size. -/
  | txRingSize
  /-- No receive ring has this size. -/
  | rxRingSize
  /-- Fewer buffers than receive descriptors. -/
  | fewBuffers
  /-- More buffers than a buffer index can name. -/
  | manyBuffers
  /-- The alignment is no power of two. -/
  | bufferAlign
  /-- A buffer has no room behind the pad, or its size does not fit a descriptor. -/
  | bufferSize
  /-- No packet may ever be outstanding. -/
  | queueDepth
  /-- A pool cannot have this many buffers. -/
  | bufferCount
  /-- The size and the alignment describe no memory block. -/
  | bufferLayout
  deriving DecidableEq, Repr

namespace Flaw

/-- The wording of a flaw. -/
def reason : Flaw → String
  | .txRingSize => "tx ring size must be a power of two"
  | .rxRingSize => "rx ring size must be a power of two"
  | .fewBuffers => "rx buffer count smaller than rx ring"
  | .manyBuffers => "too many rx buffers"
  | .bufferAlign => "rx buffer alignment"
  | .bufferSize => "rx buffer size"
  | .queueDepth => "tx queue depth"
  | .bufferCount => "rx buffer count"
  | .bufferLayout => "rx buffer layout"

/-- A flaw is refused as an invalid configuration. -/
def refusal (f : Flaw) : Refusal := .invalidConfig f.reason

end Flaw

/-- The most buffers of a pool: an index is sixteen bits wide. -/
def maxBuffers : Nat := 65535

/-- The most bytes that the capacity field of a receive descriptor can name. -/
def maxBufferSize : Nat := 4294967295

/-- The first flaw of a configuration, if it has any. -/
def flaw? (c : Config) : Option Flaw :=
  if validRingSize c.txSlots = false then some .txRingSize
  else if validRingSize c.rxSlots = false then some .rxRingSize
  else if c.bufferCount < c.rxSlots then some .fewBuffers
  else if maxBuffers < c.bufferCount then some .manyBuffers
  else if isPowerOfTwo c.bufferAlign = false then some .bufferAlign
  else if c.bufferSize ≤ c.leadingPad ∨ maxBufferSize < c.bufferSize then some .bufferSize
  else if c.queueDepth = 0 then some .queueDepth
  else none

/-- Accepts a configuration without flaws. -/
def validate (c : Config) : Except Refusal Unit :=
  match c.flaw? with
  | some f => .error f.refusal
  | none => .ok ()

/-- What a configuration without flaws promises. -/
structure Sound (c : Config) : Prop where
  /-- The transmit ring has an admitted size. -/
  tx : validRingSize c.txSlots = true
  /-- The receive ring has an admitted size. -/
  rx : validRingSize c.rxSlots = true
  /-- The pool can fill the receive ring. -/
  enough : c.rxSlots ≤ c.bufferCount
  /-- Every buffer has an index. -/
  named : c.bufferCount ≤ maxBuffers
  /-- The alignment is a power of two. -/
  aligned : isPowerOfTwo c.bufferAlign = true
  /-- A buffer has room behind the pad. -/
  room : c.leadingPad < c.bufferSize
  /-- The size fits a descriptor. -/
  fits : c.bufferSize ≤ maxBufferSize
  /-- At least one packet may be outstanding. -/
  depth : 0 < c.queueDepth

/-- The checks find nothing exactly when all the promises hold. -/
theorem flaw?_eq_none_iff {c : Config} : c.flaw? = none ↔ c.Sound := by
  have split_none {p : Prop} [Decidable p] {f : Flaw} {rest : Option Flaw} :
      (if p then some f else rest) = none ↔ ¬p ∧ rest = none := by
    by_cases h : p <;> simp [h]
  simp only [flaw?, split_none, and_true, Bool.not_eq_false, Nat.not_lt, not_or, Nat.not_le]
  constructor
  · rintro ⟨tx, rx, enough, named, aligned, ⟨room, fits⟩, depth⟩
    exact ⟨tx, rx, enough, named, aligned, room, fits, Nat.pos_of_ne_zero depth⟩
  · rintro ⟨tx, rx, enough, named, aligned, room, fits, depth⟩
    exact ⟨tx, rx, enough, named, aligned, ⟨room, fits⟩, Nat.pos_iff_ne_zero.mp depth⟩

theorem validate_eq_ok_iff {c : Config} : c.validate = .ok () ↔ c.Sound := by
  rw [← flaw?_eq_none_iff]
  unfold validate
  split <;> simp_all

end Config

end DescriptorRings
