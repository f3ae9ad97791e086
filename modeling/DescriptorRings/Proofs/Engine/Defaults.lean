import DescriptorRings.Proofs.Engine.Sizing

/-!
# What the default sizing is good for

Two ring sizes are enough to configure an engine; everything else follows by rule, and the pool gets
two buffers for each receive descriptor.  Three limits that were fixed apart from one another meet
in that rule.  A ring has at most `32768` slots, the rule doubles that, and a pool has at most
`65535` buffers.

So the rule serves every size but one (`default_sizing_serves_all_but_largest`).  The largest ring
is admitted, its configuration is built without overflow, and then it is refused, because it has a
single buffer too many (`largest_ring_has_no_default_sizing`).  An engine with such a ring has to be
told a smaller number of buffers.
-/

namespace DescriptorRings

/-! ## An allocator that never refuses -/

/-- Whatever has happened before, the allocator grants blocks of this layout. -/
def Allocator.Grants (al : Allocator) (l : Layout) : Prop :=
  ∀ asked granted, (al.answer asked granted l).isSome = true

/-- An orderly allocator without a limit grants every block that fits between two others. -/
theorem Allocator.grants_orderly {distance : Nat} {l : Layout} (some : 0 < l.size)
    (fits : l.size ≤ distance) (aligned : l.align ≤ maxAlign) :
    (orderly distance none).Grants l :=
  fun _ _ => congrArg Option.isSome (if_pos ⟨rfl, some, fits, aligned⟩)

namespace Machine

variable {k : Machine} {layout : Layout}

/-- **With an allocator that never refuses an engine with sound numbers is made.** -/
theorem createEngine_of_grants {c : Config} (sound : c.Sound)
    (fits : Layout.ofSizes? c.bufferSize c.bufferAlign = some layout)
    (grants : k.memory.allocator.Grants layout) : (k.createEngine c).1 = .ok () := by
  rcases createEngine_of_sound sound fits k with ⟨-, granted, forgone⟩ | ⟨made, -⟩
  · have granted := grants (k.memory.asked + granted.length) (k.memory.blocks.size + granted.length)
    rw [forgone.refused] at granted
    exact absurd granted Bool.false_ne_true
  · exact made

end Machine

/-! ## The default sizing -/

namespace Config

variable {tx rx : Nat} {c : Config}

/-- Everything but the ring sizes follows by rule. -/
theorem ofRingSizes_eq_ok (built : ofRingSizes tx rx = .ok c) :
    c = { standard with txSlots := tx, rxSlots := rx, bufferCount := 2 * rx } := by
  unfold ofRingSizes Checked.mul at built
  split at built
  · exact (Except.ok.inj built).symm
  · exact nomatch built

theorem sound_standard : standard.Sound := validate_eq_ok_iff.mp (by decide)

theorem layout_standard : Layout.ofSizes? standard.bufferSize standard.bufferAlign =
    some ⟨defaultBufferSize, defaultBufferAlign⟩ := by decide

/-- **The default sizing is sound for every size but the largest**, whose pool would have one buffer
too many. -/
theorem sound_of_ringSizes_iff (built : ofRingSizes tx rx = .ok c) :
    c.Sound ↔ validRingSize tx = true ∧ validRingSize rx = true ∧ rx < maxRingSize := by
  obtain rfl := ofRingSizes_eq_ok built
  constructor
  · intro sound
    have named : 2 * rx ≤ maxBuffers := sound.named
    unfold maxBuffers at named
    exact ⟨sound.tx, sound.rx, by unfold maxRingSize; omega⟩
  · rintro ⟨tx, rx, below⟩
    unfold maxRingSize at below
    exact
      { tx := tx
        rx := rx
        enough := by dsimp only; omega
        named := by dsimp only [maxBuffers]; omega
        aligned := sound_standard.aligned
        room := sound_standard.room
        fits := sound_standard.fits
        depth := sound_standard.depth }

/-- The default sizing of two admitted sizes does not overflow. -/
theorem exists_ofRingSizes (tx : Nat) (admitted : validRingSize rx = true) :
    ∃ c, ofRingSizes tx rx = .ok c := by
  have most := (RingSize.mk rx admitted).slots_le
  have inside : 2 * rx < wordSpan := by
    unfold wordSpan
    dsimp only at most
    omega
  exact ⟨_, by rw [ofRingSizes, Checked.mul_eq_ok_iff.mpr ⟨inside, rfl⟩]; rfl⟩

/-- With the largest receive ring the first flaw is the number of buffers. -/
theorem validate_of_largest (built : ofRingSizes tx maxRingSize = .ok c)
    (admitted : validRingSize tx = true) : c.validate = .error Flaw.manyBuffers.refusal := by
  obtain rfl := ofRingSizes_eq_ok built
  have largest : validRingSize maxRingSize = true := by decide
  unfold validate flaw?
  dsimp only
  rw [if_neg (by rw [admitted]; decide), if_neg (by rw [largest]; decide), if_neg (by decide),
    if_pos (by decide)]

end Config

/-- **The default sizing serves every ring but the largest.** Whatever two sizes a configuration is
built from, it is accepted exactly if both are admitted and the receive ring is not the largest one.
Two admitted sizes never overflow, and over an allocator that never refuses its blocks the engine is
made; with the largest receive ring it is refused for the number of its buffers, and nothing has
happened. -/
theorem default_sizing_serves_all_but_largest (tx rx : Nat) :
    (∀ c, Config.ofRingSizes tx rx = .ok c → (c.validate = .ok () ↔
        validRingSize tx = true ∧ validRingSize rx = true ∧ rx < maxRingSize)) ∧
      (validRingSize tx = true → validRingSize rx = true →
        ∃ c, Config.ofRingSizes tx rx = .ok c ∧ ∀ k : Machine,
          k.memory.allocator.Grants ⟨Config.defaultBufferSize, Config.defaultBufferAlign⟩ →
          (rx < maxRingSize → (k.createEngine c).1 = .ok ()) ∧
          (rx = maxRingSize → k.createEngine c = (.error Config.Flaw.manyBuffers.refusal, k))) := by
  refine ⟨fun c built => Config.validate_eq_ok_iff.trans (Config.sound_of_ringSizes_iff built),
    fun sent received => ?_⟩
  obtain ⟨c, built⟩ := Config.exists_ofRingSizes tx received
  refine ⟨c, built, fun k grants => ⟨fun below => ?_, fun largest => ?_⟩⟩
  · have sound := (Config.sound_of_ringSizes_iff built).mpr ⟨sent, received, below⟩
    obtain rfl := Config.ofRingSizes_eq_ok built
    exact Machine.createEngine_of_grants sound Config.layout_standard grants
  · subst largest
    unfold Machine.createEngine
    rw [Config.validate_of_largest built sent]

/-- The largest transmit ring with half of the largest receive ring: the pool has 32768 buffers. -/
theorem default_sizing_serves_all_but_largest_half :
    ∃ c, Config.ofRingSizes maxRingSize 16384 = .ok c ∧ c.bufferCount = 32768 ∧
      c.validate = .ok () ∧ ((Machine.blank 16384).createEngine c).1 = .ok () := by
  obtain ⟨accepted, made⟩ := default_sizing_serves_all_but_largest maxRingSize 16384
  obtain ⟨c, built, engine⟩ := made (by decide) (by decide)
  have grants : (Machine.blank 16384).memory.allocator.Grants
      ⟨Config.defaultBufferSize, Config.defaultBufferAlign⟩ :=
    Allocator.grants_orderly (by decide) (by decide) (by decide)
  refine ⟨c, built, ?_, (accepted c built).mpr ⟨by decide, by decide, by decide⟩,
    (engine _ grants).1 (by decide)⟩
  rw [Config.ofRingSizes_eq_ok built]

/-- **The largest ring is admitted, and its default sizing is not.** -/
theorem largest_ring_has_no_default_sizing : validRingSize maxRingSize = true ∧
    ∃ c, Config.ofRingSizes Config.defaultTxSlots maxRingSize = .ok c ∧ c.rxSlots = 32768 ∧
      c.bufferCount = 65536 ∧ c.validate = .error (.invalidConfig "too many rx buffers") :=
  ⟨by decide, _, rfl, rfl, rfl, by decide⟩

end DescriptorRings
