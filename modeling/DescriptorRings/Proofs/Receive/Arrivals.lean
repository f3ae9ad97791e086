import DescriptorRings.Proofs.Device.Law
import DescriptorRings.Proofs.Machine.Buffers
import DescriptorRings.Proofs.Machine.History
import DescriptorRings.Proofs.Machine.Moments
import DescriptorRings.Receive.Ring

/-!
# What arrived

A frame arrives when the adapter fills a buffer, and that is a move of the adapter and nothing else.
The journal has all moves, and all accesses of software to the adapter.  So what has arrived since
some moment can be read off the events since then, by going through them with the adapter and the
memory of that moment (`Hardware.after`) and looking at each move that fills a buffer
(`Hardware.arrivals`).  Nothing that the driver does or believes has a part in it.

An arrival is what the adapter left behind: the completion word, and the buffer as it was then.
Whether it is a frame to be shown is for the completion word to say (`Completion.Deliverable`), and
its *payload* are the bytes from the space in front up to the length that the word gives
(`Arrival.payload?`).
-/

namespace DescriptorRings

open List

/-! ## Bits -/

theorem or_and_absorb (a b : UInt32) : (a ||| b) &&& a = a := by
  rw [← UInt32.toBitVec_inj]
  refine BitVec.eq_of_getLsbD_eq fun i _ => ?_
  simp only [UInt32.toBitVec_and, UInt32.toBitVec_or, BitVec.getLsbD_and, BitVec.getLsbD_or]
  exact Bool.and_eq_right_iff_imp.mpr fun here => by rw [here, Bool.true_or]

theorem hasBits_or (w a b : UInt32) : hasBits w (a ||| b) = (hasBits w a && hasBits w b) := by
  rw [Bool.eq_iff_iff, Bool.and_eq_true]
  simp only [hasBits, beq_iff_eq]
  constructor
  · intro both
    have sub (c : UInt32) (h : (a ||| b) &&& c = c) : w &&& c = c := by
      calc w &&& c = w &&& ((a ||| b) &&& c) := by rw [h]
        _ = (w &&& (a ||| b)) &&& c := (UInt32.and_assoc _ _ _).symm
        _ = c := by rw [both, h]
    refine ⟨sub a (or_and_absorb a b), sub b ?_⟩
    rw [UInt32.or_comm]
    exact or_and_absorb b a
  · rintro ⟨ha, hb⟩
    rw [and_or_distrib, ha, hb]

theorem meetsBits_or (w a b : UInt32) :
    meetsBits w (a ||| b) = (meetsBits w a || meetsBits w b) := by
  rw [Bool.eq_iff_iff, Bool.or_eq_true]
  simp only [meetsBits, bne_iff_ne, ne_eq, and_or_distrib, UInt32.or_eq_zero_iff]
  exact not_and_or

/-! ## Arrivals -/

/-- A completion word that announces a frame to be shown, where `pad` bytes are left in front and
the buffer has `size` bytes. -/
structure Completion.Deliverable (c : Completion) (pad size : Nat) : Prop where
  /-- The buffer holds the start of a frame. -/
  start : hasBits c.status RxStatus.startOfPacket = true
  /-- It holds the end of one. -/
  finish : hasBits c.status RxStatus.endOfPacket = true
  /-- No error is reported. -/
  faultless : ∀ fault ∈ [RxStatus.crcError, RxStatus.overrun, RxStatus.nonOctet, RxStatus.tooLong,
    RxStatus.rxError], meetsBits c.status fault = false
  /-- The length reaches past the space in front. -/
  reaches : pad ≤ c.length.toNat
  /-- It does not reach past the buffer. -/
  fits : c.length.toNat ≤ size

theorem Completion.deliverable_iff {c : Completion} {pad size : Nat} :
    (c.isWholeFrame && (decide (pad ≤ c.length.toNat) && decide (c.length.toNat ≤ size))) = true ↔
      c.Deliverable pad size := by
  have faultless : meetsBits c.status RxStatus.errors = false ↔
      ∀ fault ∈ [RxStatus.crcError, RxStatus.overrun, RxStatus.nonOctet, RxStatus.tooLong,
        RxStatus.rxError], meetsBits c.status fault = false := by
    simp only [RxStatus.errors, meetsBits_or, Bool.or_eq_false_iff, forall_mem_cons,
      not_mem_nil, false_implies, implies_true, and_true, and_assoc]
  rw [isWholeFrame, RxStatus.wholeFrame, hasBits_or, Bool.and_eq_true,
    Bool.and_eq_true, Bool.and_eq_true, Bool.and_eq_true, Bool.not_eq_true', faultless,
    decide_eq_true_iff, decide_eq_true_iff]
  constructor
  · rintro ⟨⟨⟨start, finish⟩, faultless⟩, reaches, fits⟩
    exact ⟨start, finish, faultless, reaches, fits⟩
  · rintro ⟨start, finish, faultless, reaches, fits⟩
    exact ⟨⟨⟨start, finish⟩, faultless⟩, reaches, fits⟩

instance (c : Completion) (pad size : Nat) : Decidable (c.Deliverable pad size) :=
  decidable_of_iff _ Completion.deliverable_iff

/-- **The ring shows the frames that are to be shown.** -/
theorem RxRing.deliverable_iff {r : RxRing} {size : Nat} {c : Completion} :
    r.deliverable size c = true ↔ c.Deliverable r.pad size :=
  Completion.deliverable_iff

/-- A buffer that was filled. -/
structure Arrival where
  /-- What the adapter says about it. -/
  completion : Completion
  /-- Where it lies. -/
  address : BusAddress
  /-- The memory just after it was filled. -/
  memory : Memory

namespace Arrival

/-- The bytes of the buffer as received, from the space in front up to the length. -/
def payload (arrival : Arrival) (pad : Nat) : List UInt8 :=
  arrival.memory.load arrival.address pad (arrival.completion.length.toNat - pad)

/-- The payload of a frame that is to be shown. -/
def payload? (pad size : Nat) (arrival : Arrival) : Option (List UInt8) :=
  if arrival.completion.Deliverable pad size then some (arrival.payload pad) else none

end Arrival

/-- The adapter, and the memory that it shares with software. -/
structure Hardware where
  /-- The adapter. -/
  adapter : Adapter
  /-- The memory. -/
  memory : Memory

/-- The hardware of a machine. -/
def Scene.hardware (s : Scene) : Hardware := ⟨s.adapter, s.memory⟩

namespace Hardware

/-- What an event does to the hardware. -/
def after (h : Hardware) : Event → Hardware
  | .wrote r v => { h with adapter := h.adapter.write r v }
  | .wroteTx slot d => { h with adapter := h.adapter.writeTx slot d }
  | .wroteRx slot address capacity => { h with adapter := h.adapter.writeRx slot address capacity }
  | .allocated layout _ => { h with memory := (h.memory.allocate layout).2 }
  | .freed address => { h with memory := h.memory.free address }
  | .moved mv => { adapter := h.adapter.move mv, memory := h.adapter.store mv h.memory }
  | _ => h

/-- What arrives by an event: nothing, unless it is a move that fills a buffer. -/
def arrival? (h : Hardware) : Event → Option Arrival
  | .moved mv =>
    (h.adapter.filled? mv).bind fun frame =>
      h.adapter.receivingDescriptor?.map fun d =>
        { completion := ⟨frame.status, frame.length⟩
          address := d.address
          memory := h.adapter.storeFrame frame h.memory }
  | _ => none

/-- **The payload of an ordinary frame is the frame**: its bytes go behind the space in front, the
length takes in both, and the buffer has room for them. -/
theorem payload_arrival? {h : Hardware} {mv : Move} {frame : Reception} {d : RxDescriptor} {k : Nat}
    (filled : h.adapter.filled? mv = some frame)
    (described : h.adapter.receivingDescriptor? = some d)
    (block : h.memory.blockAt? d.address = some k)
    (live : (h.memory.blocks.getD k default).live = true)
    (fits : frame.pad + frame.data.length ≤ (h.memory.blocks.getD k default).size)
    (length : frame.length.toNat = frame.pad + frame.data.length) :
    (h.arrival? (.moved mv)).map (fun arrival => arrival.payload frame.pad) = some frame.data := by
  have stored : h.adapter.storeFrame frame h.memory =
      h.memory.store d.address frame.pad frame.data := by
    rw [Adapter.storeFrame, described]
  have read := Memory.load_store block live fits
  rw [arrival?, filled, described]
  show some ((h.adapter.storeFrame frame h.memory).load d.address frame.pad
    (frame.length.toNat - frame.pad)) = _
  rw [stored, length, Nat.add_sub_cancel_left, read]

/-- What events do to the hardware, one after the other. -/
def afterAll (h : Hardware) (events : List Event) : Hardware := events.foldl after h

/-- What arrives in the course of events. -/
def arrivals (h : Hardware) : List Event → List Arrival
  | [] => []
  | e :: later => (h.arrival? e).toList ++ (h.after e).arrivals later

theorem afterAll_concat (h : Hardware) (events : List Event) (e : Event) :
    h.afterAll (events ++ [e]) = (h.afterAll events).after e := by
  rw [afterAll, foldl_append]
  rfl

theorem arrivals_concat (h : Hardware) (events : List Event) (e : Event) :
    h.arrivals (events ++ [e]) = h.arrivals events ++ ((h.afterAll events).arrival? e).toList := by
  induction events generalizing h with
  | nil => exact append_nil _
  | cons first events ih =>
    rw [cons_append, arrivals, ih, arrivals, append_assoc]
    rfl

end Hardware

/-! ## The history since a moment -/

/-- The bytes of a frame that was shown to the upper layer. -/
def Event.shown? : Event → Option (List UInt8)
  | .delivered _ bytes => some bytes
  | _ => none

namespace Journal

/-- The bytes of the frames that were shown since there were `n` events. -/
def shownSince (j : Journal) (n : Nat) : List (List UInt8) := (j.since n).filterMap Event.shown?

theorem since_add {j : Journal} (complete : j.detail = .complete) {n : Nat}
    (h : n ≤ j.events.size) (e : Event) : (j.add e).since n = j.since n ++ [e] := by
  simp only [since, Array.toList_extract, toList_events_add complete, ← Array.length_toList,
    length_append, length_singleton, extract_eq_take_drop]
  rw [drop_append_of_le_length (by simpa using h), take_of_length_le, take_of_length_le]
  · simp
  · simp
    omega

theorem since_size (j : Journal) : j.since j.events.size = [] := by
  simp [since]

end Journal

/-- The history of a machine since a moment: where the hardware has got, what has arrived, and what
was shown. -/
structure Machine.Since (start : Hardware) (n : Nat) (m : Machine) (arrived : List Arrival)
    (shown : List (List UInt8)) : Prop where
  /-- The moment is past. -/
  past : n ≤ m.journal.events.size
  /-- The events account for what has become of the hardware. -/
  hardware : start.afterAll (m.journal.since n) = m.toScene.hardware
  /-- What has arrived. -/
  arrived : start.arrivals (m.journal.since n) = arrived
  /-- What was shown. -/
  shown : m.journal.shownSince n = shown

namespace Machine.Since

variable {start : Hardware} {n : Nat} {m m' : Machine} {arrived : List Arrival}
  {shown : List (List UInt8)}

/-- Nothing has happened yet. -/
theorem now (m : Machine) : Since m.toScene.hardware m.journal.events.size m [] [] := by
  refine ⟨Nat.le_refl _, ?_, ?_, ?_⟩
  · rw [Journal.since_size]
    rfl
  · rw [Journal.since_size]
    rfl
  · rw [Journal.shownSince, Journal.since_size]
    rfl

/-- **One event more.** -/
theorem record (h : Since start n m arrived shown) (complete : m.journal.detail = .complete)
    {k : Machine} {e : Event} (journal : k.journal = m.journal)
    (hardware : m.toScene.hardware.after e = k.toScene.hardware) :
    Since start n (k.record e) (arrived ++ (m.toScene.hardware.arrival? e).toList)
      (shown ++ e.shown?.toList) := by
  have added : (k.record e).journal = m.journal.add e := by rw [journal_record, journal]
  have since : (k.record e).journal.since n = m.journal.since n ++ [e] := by
    rw [added, Journal.since_add complete h.past]
  refine ⟨?_, ?_, ?_, ?_⟩
  · rw [added, Journal.events_add_of_complete complete, Array.size_push]
    exact Nat.le_succ_of_le h.past
  · rw [since, Hardware.afterAll_concat, h.hardware, hardware, toScene_record]
    rfl
  · rw [since, Hardware.arrivals_concat, h.hardware, h.arrived]
  · rw [Journal.shownSince, since, filterMap_append]
    refine congrArg₂ _ h.shown ?_
    cases e <;> rfl

/-- No event at all. -/
theorem congr (h : Since start n m arrived shown) (journal : m'.journal = m.journal)
    (adapter : m'.adapter = m.adapter) (memory : m'.memory = m.memory) :
    Since start n m' arrived shown := by
  refine ⟨?_, ?_, ?_, ?_⟩
  · rw [journal]
    exact h.past
  · rw [journal, h.hardware, Scene.hardware, Scene.hardware, adapter, memory]
  · rw [journal]
    exact h.arrived
  · rw [journal]
    exact h.shown

end Machine.Since

end DescriptorRings
