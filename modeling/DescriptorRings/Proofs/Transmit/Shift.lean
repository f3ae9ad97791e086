import DescriptorRings.Proofs.Counter.Window
import DescriptorRings.Transmit.Ring

/-!
# A ring whose counters stand elsewhere

The counters of a ring start where the adapter happens to stand, so nothing that a ring does may
depend on where that is.  `TxRing.shift e` is a ring with all of its counters `e` further on: both
ends of the window, and the last descriptor of every packet that the posting walk has passed.  This
file lets the shift pass through each function of the ring.

Two facts about counters carry all of it.  A difference of two counters does not change when both
are shifted (`past_add_add`, `distance_add_add`), so every comparison that the ring makes comes out
as before, the wrap included.  And a slot moves by the shift modulo the size of the ring
(`slot_add`), because the size divides the span of the counters; so what is written lands in other
slots, but in the same order (`TxPost.writes_shift`).
-/

namespace DescriptorRings

open List

/-! ## Counters -/

namespace Counter

variable (a b e : Counter)

theorem past_add_add : (a + e).past (b + e) = a.past b := by
  have same : (a + e) - (b + e) = a - b := by grind
  rw [past, same, past]

theorem distance_add_add (size : Nat) : (a + e).distance (b + e) size = a.distance b size :=
  congrArg (· % size) (past_add_add a b e)

theorem advance_add (n : Nat) : (a + e).advance n = a.advance n + e := by
  unfold advance
  grind

theorem slot_add (size : RingSize) :
    (a + e).slot size.slots = (a.slot size.slots + e.toNat) % size.slots := by
  have moved := slot_advance a size e.toNat
  rwa [advance, UInt16.ofNat_toNat] at moved

end Counter

/-! ## Entries and posts -/

/-- An entry whose last descriptor lies elsewhere. -/
def TxEntry.shift (e : Counter) (x : TxEntry) : TxEntry := { x with last := x.last.map (· + e) }

namespace TxPost

/-- A post that begins elsewhere. -/
def shift (e : Counter) (t : TxPost) : TxPost := { t with first := t.first + e }

theorem last_shift (e : Counter) (t : TxPost) : (t.shift e).last = t.last + e := by
  have moved := t.first.advance_add e t.packet.fragmentCount
  unfold last shift
  grind

/-- **The descriptors of a post move to other slots**, and are the same. -/
theorem writes_shift (e : Counter) (t : TxPost) (size : RingSize) :
    (t.shift e).writes size =
      (t.writes size).map fun w => ((w.1 + e.toNat) % size.slots, w.2) := by
  refine ext_getElem (by simp [writes, shift]) fun i _ _ => ?_
  simp [writes, shift, Counter.advance_add, Counter.slot_add]

end TxPost

namespace TxRing

/-! ## The walk -/

/-- A walk over counters elsewhere. -/
def Walk.shift (e : Counter) (w : Walk) : Walk :=
  { w with
    passed := w.passed.map (TxEntry.shift e)
    posts := w.posts.map (TxPost.shift e)
    producer := w.producer + e }

@[simp] theorem Walk.written_shift (e : Counter) (w : Walk) : (w.shift e).written = w.written := by
  unfold Walk.written Walk.shift
  rw [foldr_map]
  rfl

/-- **A walk that begins elsewhere passes, posts and leaves the same packets.** -/
theorem walk_shift (size : RingSize) (reclaim e : Counter) (ps : List Packet) (producer : Counter) :
    walk size (reclaim + e) ps (producer + e) = (walk size reclaim ps producer).shift e := by
  induction ps generalizing producer with
  | nil => rfl
  | cons p ps ih =>
    unfold walk
    dsimp only
    rw [Counter.distance_add_add, Counter.advance_add, ih producer, ih]
    split
    · rfl
    · split
      · rfl
      · have last := TxPost.last_shift e ⟨p, producer⟩
        unfold TxPost.shift at last
        unfold Walk.posting Walk.shift
        dsimp only
        rw [last]
        rfl

/-! ## The ring -/

/-- A ring whose counters stand elsewhere. -/
def shift (e : Counter) (r : TxRing) : TxRing :=
  { r with
    passed := r.passed.map (TxEntry.shift e)
    producer := r.producer + e
    reclaim := r.reclaim + e }

variable (e c : Counter) (r : TxRing)

theorem shift_zero : r.shift 0 = r := by
  have entries : r.passed.map (TxEntry.shift 0) = r.passed := by
    refine map_id'' (fun x => ?_) _
    obtain ⟨p, last⟩ := x
    cases last <;> simp [TxEntry.shift]
  unfold shift
  rw [entries, UInt16.add_zero, UInt16.add_zero]

@[simp] theorem inFlight_shift : (r.shift e).inFlight = r.inFlight :=
  Counter.distance_add_add _ _ _ _

@[simp] theorem freeSlots_shift : (r.shift e).freeSlots = r.freeSlots :=
  congrArg (r.capacity - ·) (r.inFlight_shift e)

theorem queue_shift : (r.shift e).queue = r.queue := by
  unfold queue shift
  rw [map_map]
  rfl

theorem accept_shift (p : Packet) : (r.shift e).accept p = (r.accept p).shift e := rfl

theorem collect_shift : (r.shift e).collect = r.collect.shift e := rfl

theorem cancel_shift : (r.shift e).cancel = r.cancel.shift e := by
  unfold cancel shift
  rw [map_map, map_map]
  rfl

theorem abandon_shift : (r.shift e).abandon = r.abandon.shift e := rfl

/-- Only the entries keep the place from which a ring starts anew. -/
theorem begin_shift {e' : Counter} (h : r.passed.map (TxEntry.shift e') = r.passed.map (.shift e)) :
    (r.shift e').begin (c + e) = (r.begin c).shift e := by
  unfold begin shift
  rw [h]

theorem postingWalk_shift : (r.shift e).postingWalk = r.postingWalk.shift e :=
  walk_shift _ _ _ _ _

theorem afterWalk_shift (w : Walk) : (r.shift e).afterWalk (w.shift e) = (r.afterWalk w).shift e := by
  have written := w.written_shift e
  unfold afterWalk shift
  rw [written, map_append]
  unfold Walk.shift
  rw [length_map]

/-! ## Readings and completions -/

theorem believes_shift : (r.shift e).believes (c + e) = r.believes c := by
  have past := Counter.past_add_add c r.reclaim e
  have same := r.inFlight_shift e
  unfold believes
  rw [same]
  unfold shift
  rw [past]

theorem unconsumed_shift : (r.shift e).unconsumed (c + e) = r.unconsumed c := by
  unfold unconsumed
  rw [believes_shift, inFlight_shift]
  exact congrArg (if r.believes c then · else r.inFlight) (Counter.distance_add_add _ _ _ _)

theorem noteReading_shift : (r.shift e).noteReading (c + e) = (r.noteReading c).shift e := by
  unfold noteReading
  rw [believes_shift]
  split <;> rfl

theorem takeDone?_shift (n : Nat) :
    (r.shift e).takeDone? n = (r.takeDone? n).map fun x => (x.1, x.2.shift e) := by
  unfold takeDone?
  cases hp : r.passed with
  | nil => simp [shift, hp]
  | cons x rest =>
    obtain ⟨p, last⟩ := x
    cases last with
    | none => simp [shift, hp, TxEntry.shift]
    | some last =>
      have far := Counter.distance_add_add r.producer last e r.size.slots
      have next := last.advance_add e 1
      simp only [shift, hp, map_cons, TxEntry.shift, Option.map_some, far, next]
      split <;> rfl

theorem takeOldest?_shift :
    (r.shift e).takeOldest? = r.takeOldest?.map fun x => (x.1, x.2.shift e) := by
  unfold takeOldest?
  cases hp : r.passed with
  | cons x rest => simp [shift, hp, TxEntry.shift]
  | nil => cases hw : r.waiting <;> simp [shift, hp, hw]

end TxRing

end DescriptorRings
