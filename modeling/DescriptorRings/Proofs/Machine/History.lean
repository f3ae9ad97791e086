import DescriptorRings.Machine.Event
import Mathlib.Data.List.DropRight

/-!
# Reading a journal

A statement about a run is a statement about its journal: which packets were accepted, which were
handed back, which were posted since the direction was switched on.  Each of these is a list that a
function *picks* out of the events, so that one law says how all of them grow: an event that the
function does not look at leaves the list alone, and any other is added at the end.

All of it needs a journal that keeps every event, since the inner ones are among those picked.
-/

namespace DescriptorRings

/-! ## What an event is about -/

namespace Event

/-- The packet that was taken in. -/
def accepted? : Event → Option Packet
  | .accepted p => some p
  | _ => none

/-- The packet that was handed back. -/
def completed? : Event → Option Packet
  | .completed p => some p
  | _ => none

/-- The packet that was handed back as transmitted. -/
def transmitted? : Event → Option Packet
  | .completed p => if p.ignored then none else some p
  | _ => none

/-- The packet that is about to be written. -/
def posting? : Event → Option TxPost
  | .posting t => some t
  | _ => none

/-- The transmit descriptor that was written, with its slot. -/
def wroteTx? : Event → Option (Nat × TxDescriptor)
  | .wroteTx slot d => some (slot, d)
  | _ => none

/-- Whether the switch of the transmit direction was written. -/
def isTxSwitch : Event → Bool
  | .wrote .txDmaControl _ => true
  | _ => false

end Event

namespace Journal

variable {α : Type}

/-! ## Picking -/

/-- What a function picks out of the events, in order. -/
def pick (j : Journal) (f : Event → Option α) : List α := j.events.toList.filterMap f

/-- The packets taken in so far. -/
def accepted (j : Journal) : List Packet := j.pick Event.accepted?

/-- The packets handed back so far. -/
def completed (j : Journal) : List Packet := j.pick Event.completed?

/-- The packets announced so far, with their places. -/
def announced (j : Journal) : List TxPost := j.pick Event.posting?

/-- The transmit descriptors written so far, with their slots. -/
def written (j : Journal) : List (Nat × TxDescriptor) := j.pick Event.wroteTx?

@[simp] theorem toList_events_add {j : Journal} (h : j.detail = .complete) (e : Event) :
    (j.add e).events.toList = j.events.toList ++ [e] := by
  rw [events_add_of_complete h, Array.toList_push]

theorem pick_add {j : Journal} (h : j.detail = .complete) (f : Event → Option α) (e : Event) :
    (j.add e).pick f = j.pick f ++ (f e).toList := by
  rw [pick, toList_events_add h, List.filterMap_append, pick]
  cases hf : f e <;> simp [hf]

/-- **An event that is not looked at changes nothing.** -/
theorem pick_add_of_none {j : Journal} (h : j.detail = .complete) {f : Event → Option α} {e : Event}
    (hf : f e = none) : (j.add e).pick f = j.pick f := by
  rw [pick_add h, hf, Option.toList_none, List.append_nil]

/-! ## Picking among the latest events -/

/-- The events since the last one that is marked. -/
def after (j : Journal) (mark : Event → Bool) : List Event :=
  j.events.toList.rtakeWhile fun e => !mark e

theorem after_add {j : Journal} (h : j.detail = .complete) (mark : Event → Bool) (e : Event) :
    (j.add e).after mark = if mark e then [] else j.after mark ++ [e] := by
  rw [after, toList_events_add h]
  cases he : mark e with
  | true => rw [List.rtakeWhile_concat_neg _ _ _ (by simp [he]), if_pos rfl]
  | false =>
    rw [List.rtakeWhile_concat_pos _ _ _ (by simp [he]), if_neg (by decide)]
    rfl

/-- What a function picks out of the events since the last one that is marked. -/
def latest (j : Journal) (mark : Event → Bool) (f : Event → Option α) : List α :=
  (j.after mark).filterMap f

theorem latest_add_of_mark {j : Journal} (h : j.detail = .complete) {mark : Event → Bool}
    (f : Event → Option α) {e : Event} (he : mark e = true) : (j.add e).latest mark f = [] := by
  rw [latest, after_add h, if_pos he, List.filterMap_nil]

theorem latest_add {j : Journal} (h : j.detail = .complete) {mark : Event → Bool}
    (f : Event → Option α) {e : Event} (he : mark e = false) :
    (j.add e).latest mark f = j.latest mark f ++ (f e).toList := by
  rw [latest, after_add h, if_neg (by rw [he]; decide), List.filterMap_append, latest]
  cases hf : f e <;> simp [hf]

theorem latest_add_of_none {j : Journal} (h : j.detail = .complete) {mark : Event → Bool}
    {f : Event → Option α} {e : Event} (he : mark e = false) (hf : f e = none) :
    (j.add e).latest mark f = j.latest mark f := by
  rw [latest_add h f he, hf, Option.toList_none, List.append_nil]

/-- The packets announced since the transmit direction was last switched, with their places. -/
def posted (j : Journal) : List TxPost := j.latest Event.isTxSwitch Event.posting?

/-- The packets handed back as transmitted since the transmit direction was last switched. -/
def transmitted (j : Journal) : List Packet := j.latest Event.isTxSwitch Event.transmitted?

/-! ## The end of a request -/

/-- A request that the upper layer made has just come to an end. -/
def Replied (j : Journal) : Prop := ∃ before o, j.events.toList = before ++ [.replied o]

/-- Only the entry of an outcome brings a journal into this situation. -/
theorem not_replied_add {j : Journal} (h : j.detail = .complete) {e : Event}
    (other : ∀ o, e ≠ .replied o) : ¬(j.add e).Replied := by
  rintro ⟨before, o, hsplit⟩
  rw [toList_events_add h] at hsplit
  obtain ⟨-, hlast⟩ := List.append_inj' hsplit rfl
  exact other o (List.singleton_inj.mp hlast)

/-! ## The room that a completion leaves -/

/-- A packet was handed back, and none was taken in since. -/
def AfterCompletion (j : Journal) : Prop :=
  ∃ before p later, j.events.toList = before ++ .completed p :: later ∧
    ∀ q, Event.accepted q ∉ later

/-- Only a completion brings a journal into this situation. -/
theorem AfterCompletion.of_add {j : Journal} (h : j.detail = .complete) {e : Event}
    (he : e.completed? = none) (hj : (j.add e).AfterCompletion) : j.AfterCompletion := by
  obtain ⟨before, p, later, hsplit, hnone⟩ := hj
  rw [toList_events_add h] at hsplit
  rcases List.eq_nil_or_concat later with rfl | ⟨shorter, e', rfl⟩
  · obtain ⟨-, hlast⟩ := List.append_inj' hsplit rfl
    obtain rfl := List.singleton_inj.mp hlast
    exact absurd he (Option.some_ne_none p)
  · rw [List.concat_eq_append, ← List.cons_append, ← List.append_assoc] at hsplit
    obtain ⟨hinit, -⟩ := List.append_inj' hsplit rfl
    refine ⟨before, p, shorter, hinit, fun q hq => hnone q ?_⟩
    rw [List.concat_eq_append]
    exact List.mem_append_left _ hq

/-- Taking a packet in ends it. -/
theorem not_afterCompletion_add_accepted {j : Journal} (h : j.detail = .complete) (q : Packet) :
    ¬(j.add (.accepted q)).AfterCompletion := by
  rintro ⟨before, p, later, hsplit, hnone⟩
  rw [toList_events_add h] at hsplit
  rcases List.eq_nil_or_concat later with rfl | ⟨shorter, e', rfl⟩
  · obtain ⟨-, hlast⟩ := List.append_inj' hsplit rfl
    exact Event.noConfusion (List.singleton_inj.mp hlast)
  · rw [List.concat_eq_append, ← List.cons_append, ← List.append_assoc] at hsplit
    obtain ⟨-, hlast⟩ := List.append_inj' hsplit rfl
    refine hnone q ?_
    rw [List.concat_eq_append, ← hlast]
    exact List.mem_append_right _ (List.mem_singleton_self _)

end Journal

end DescriptorRings
