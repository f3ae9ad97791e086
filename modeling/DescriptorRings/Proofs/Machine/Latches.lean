import DescriptorRings.Proofs.Machine.Strokes

/-!
# What a register held in between

A register that the adapter leaves alone changes only by a write, and every write is entered in the
journal.  So whoever knows what was entered on the way from one machine to another knows what the
register has held at every moment of that way (`Machine.Latched`), and this is true of whatever part
is at work (`Machine.Latches.working`).
-/

namespace DescriptorRings

open Relation List

variable {p : Part} {Act : Machine → Machine → Prop} {m m' : Machine} {reg : Register} {v : UInt32}

namespace Machine

/-- From one machine to another these events were entered and these moments remembered, and a
register has held a value all the time unless another value was written into it. -/
structure Latched (reg : Register) (v : UInt32) (m m' : Machine) (es : List Event)
    (past : List Scene) : Prop where
  /-- Every event is kept. -/
  complete : m'.journal.detail = .complete
  /-- The adapter plans to leave the register alone. -/
  planned : Permitted (Move.Spares reg) m'.agenda
  /-- These are the events. -/
  events : m'.journal.events.toList = m.journal.events.toList ++ es
  /-- These are the moments, the latest first. -/
  moments : m'.moments = m.moments.map (past ++ ·)
  /-- The register holds the value. -/
  holds : (∀ w, Event.wrote reg w ∈ es → w = v) → m.adapter.read reg = v →
    m'.adapter.read reg = v ∧ ∀ s ∈ past, s.adapter.read reg = v

/-- On the way from one machine to another a register changes by nothing but a write. -/
def Latches (reg : Register) (v : UInt32) (m m' : Machine) : Prop :=
  m.journal.detail = .complete → Permitted (Move.Spares reg) m.agenda →
    ∃ es past, Latched reg v m m' es past

namespace Latches

variable {m'' : Machine}

/-- There is no event and no moment. -/
theorem of_same (journal : m'.journal = m.journal) (moments : m'.moments = m.moments)
    (planned : Permitted (Move.Spares reg) m.agenda → Permitted (Move.Spares reg) m'.agenda)
    (register : m'.adapter.read reg = m.adapter.read reg) : Latches reg v m m' := by
  intro complete spare
  refine ⟨[], [], by rw [journal]; exact complete, planned spare, by rw [journal, append_nil], ?_,
    fun _ value => ⟨register.trans value, fun s hs => absurd hs not_mem_nil⟩⟩
  rw [moments]
  cases m.moments <;> rfl

theorem refl (reg : Register) (v : UInt32) (m : Machine) : Latches reg v m m :=
  of_same rfl rfl id rfl

theorem trans (h : Latches reg v m m') (h' : Latches reg v m' m'') : Latches reg v m m'' := by
  intro complete spare
  obtain ⟨es, past, first⟩ := h complete spare
  obtain ⟨es', past', second⟩ := h' first.complete first.planned
  refine ⟨es ++ es', past' ++ past, second.complete, second.planned, ?_, ?_, fun writes value => ?_⟩
  · rw [second.events, first.events, append_assoc]
  · rw [second.moments, first.moments]
    cases m.moments with
    | none => rfl
    | some old => exact congrArg some (append_assoc _ _ _).symm
  · obtain ⟨between, earlier⟩ := first.holds (fun w hw => writes w (mem_append_left _ hw)) value
    obtain ⟨after, later⟩ := second.holds (fun w hw => writes w (mem_append_right _ hw)) between
    refine ⟨after, fun s hs => ?_⟩
    rcases mem_append.mp hs with hs | hs
    · exact later s hs
    · exact earlier s hs

/-- The adapter changes, and that is entered. -/
theorem record {k : Machine} (e : Event) (journal : k.journal = m.journal)
    (moments : k.moments = m.moments) (agenda : k.agenda = m.agenda)
    (register : (∃ w, e = .wrote reg w ∧ k.adapter.read reg = w) ∨
      (Permitted (Move.Spares reg) m.agenda → k.adapter.read reg = m.adapter.read reg)) :
    Latches reg v m (k.record e) := by
  intro complete spare
  refine ⟨[e], [(k.record e).toScene], ?_, ?_, ?_, ?_, fun writes value => ?_⟩
  · rw [journal_record, Journal.detail_add, journal]
    exact complete
  · rw [agenda_record, agenda]
    exact spare
  · rw [journal_record, journal, Journal.toList_events_add complete]
  · rw [moments_record, moments]
    rfl
  · have now : (k.record e).adapter.read reg = v := by
      rw [adapter_record]
      rcases register with ⟨w, rfl, written⟩ | same
      · exact written.trans (writes w (mem_singleton_self _))
      · exact (same spare).trans value
    refine ⟨now, fun s hs => ?_⟩
    rw [mem_singleton.mp hs]
    exact now

theorem note (m : Machine) (e : Event) : Latches reg v m (m.record e) :=
  record e rfl rfl rfl (.inr fun _ => rfl)

theorem poke (status : reg ≠ .irqStatus) (m : Machine) (r : Register) (w : UInt32) :
    Latches reg v m (m.poke r w) := by
  refine record (k := m.setAdapter (m.adapter.write r w)) (.wrote r w) rfl rfl rfl ?_
  by_cases same : reg = r
  · subst same
    exact .inl ⟨w, rfl, Adapter.read_write_self _ _ _⟩
  · exact .inr fun _ => m.adapter.read_write_elsewhere same status w

theorem move {mv : Move} (spares : mv.Spares reg) (m : Machine) : Latches reg v m (m.move mv) :=
  record (k := { m with memory := m.adapter.store mv m.memory, adapter := m.adapter.move mv })
    (.moved mv) rfl rfl rfl (.inr fun _ => spares m.adapter)

theorem turn (m : Machine) : Latches reg v m m.turn := by
  intro complete spare
  exact keeps_turn_of_planned (P := Latches reg v m) spare
    (fun _ _ spare' => of_same rfl rfl (fun _ => spare') rfl)
    (fun k _ spares h => h.trans (move spares k)) (refl reg v m) complete spare

/-- **Whatever part is at work**, its writes are entered. -/
theorem stroke {shifts : Prop} (status : reg ≠ .irqStatus) (h : Stroke p shifts m m') :
    Latches reg v m m' := by
  cases h with
  | turn => exact turn m
  | look | tell => exact note m _
  | write => exact poke status m _ _
  | switch => exact poke status m _ _
  | describeTx _ slot d =>
    exact record (k := m.setAdapter (m.adapter.writeTx slot d)) _ rfl rfl rfl (.inr fun _ => rfl)
  | describeRx _ slot address capacity =>
    exact record (k := m.setAdapter (m.adapter.writeRx slot address capacity)) _ rfl rfl rfl
      (.inr fun _ => rfl)
  | free _ a =>
    exact record (k := { m with memory := m.memory.free a }) _ rfl rfl rfl (.inr fun _ => rfl)
  | changeTx | changeRx | bury | changeHeld | changeArbiter => exact of_same rfl rfl id rfl

theorem working {shifts : Prop} (status : reg ≠ .irqStatus)
    (acts : ∀ k k', Act k k' → Latches reg v k k') (run : Working p shifts Act m m') :
    Latches reg v m m' :=
  run.keeps (fun _ _ h ih => ih.trans (stroke status h)) (fun _ _ h ih => ih.trans (acts _ _ h))
    (refl reg v m)

end Latches

end Machine

end DescriptorRings
