import DescriptorRings.Proofs.Machine.History
import DescriptorRings.Proofs.Machine.Moments

/-!
# What is entered between two machines

An operation is a long series of small changes, and most of them are of no interest to whoever asks
about packets or frames.  `Enters P m m'` says that all the events entered on the way from one
machine to the other are of a kind `P`.  It is reflexive and transitive, so the events of an
operation are those of its parts; and a list that is picked out of the journal grows only by what is
picked out of such events (`Enters.pick_append`), which is nothing at all if the events are not
looked at (`Enters.pick_eq`).

Notices tell what is done, and the moves of the adapter are none of the driver's.  Of all other events
`Does es m m'` says which they were, one after the other: a part did these things on the way and no
others.
-/

namespace DescriptorRings

open Relation

/-- Whether an event is something that is done, neither a notice nor a move of the adapter. -/
def Event.isDone : Event → Bool
  | .noticed _ | .moved _ => false
  | _ => true

namespace Machine

/-- Between two machines only events of a kind were entered. -/
structure Enters (P : Event → Prop) (m m' : Machine) : Prop where
  /-- The level of detail stays. -/
  detail : m'.journal.detail = m.journal.detail
  /-- What came at the end is of the kind. -/
  events : m.journal.detail = .complete →
    ∃ es, m'.journal.events.toList = m.journal.events.toList ++ es ∧ ∀ e ∈ es, P e

namespace Enters

variable {P Q : Event → Prop} {m m' m'' : Machine}

theorem of_journal_eq (P : Event → Prop) (h : m'.journal = m.journal) : Enters P m m' := by
  refine ⟨by rw [h], fun _ => ⟨[], ?_, fun e he => absurd he List.not_mem_nil⟩⟩
  rw [h, List.append_nil]

theorem refl (P : Event → Prop) (m : Machine) : Enters P m m := of_journal_eq P rfl

theorem trans (h : Enters P m m') (h' : Enters P m' m'') : Enters P m m'' := by
  refine ⟨h'.detail.trans h.detail, fun complete => ?_⟩
  obtain ⟨es, hes, first⟩ := h.events complete
  obtain ⟨es', hes', second⟩ := h'.events (h.detail.trans complete)
  refine ⟨es ++ es', ?_, fun e he => ?_⟩
  · rw [hes', hes, List.append_assoc]
  · rcases List.mem_append.mp he with he | he
    · exact first e he
    · exact second e he

theorem mono (h : Enters P m m') (weaker : ∀ e, P e → Q e) : Enters Q m m' := by
  refine ⟨h.detail, fun complete => ?_⟩
  obtain ⟨es, hes, all⟩ := h.events complete
  exact ⟨es, hes, fun e he => weaker e (all e he)⟩

theorem and (h : Enters P m m') (h' : Enters Q m m') : Enters (fun e => P e ∧ Q e) m m' := by
  refine ⟨h.detail, fun complete => ?_⟩
  obtain ⟨es, hes, all⟩ := h.events complete
  obtain ⟨es', hes', all'⟩ := h'.events complete
  obtain rfl : es' = es := List.append_cancel_left (hes'.symm.trans hes)
  exact ⟨es', hes, fun e he => ⟨all e he, all' e he⟩⟩

/-- **What is picked out of the journal grows by what is picked out of the new events.** -/
theorem pick_append {α : Type} (h : Enters P m m') (complete : m.journal.detail = .complete)
    {f : Event → Option α} {R : α → Prop} (picked : ∀ e a, P e → f e = some a → R a) :
    ∃ as, m'.journal.pick f = m.journal.pick f ++ as ∧ ∀ a ∈ as, R a := by
  obtain ⟨es, hes, all⟩ := h.events complete
  refine ⟨es.filterMap f, ?_, fun a ha => ?_⟩
  · rw [Journal.pick, hes, List.filterMap_append, Journal.pick]
  · obtain ⟨e, he, hf⟩ := List.mem_filterMap.mp ha
    exact picked e a (all e he) hf

theorem pick_eq {α : Type} (h : Enters P m m') (complete : m.journal.detail = .complete)
    {f : Event → Option α} (unseen : ∀ e, P e → f e = none) :
    m'.journal.pick f = m.journal.pick f := by
  obtain ⟨as, has, none⟩ := h.pick_append complete (f := f) (R := fun _ => False) fun e a he hf =>
    absurd hf (by rw [unseen e he]; exact (Option.some_ne_none a).symm)
  cases as with
  | nil => rw [has, List.append_nil]
  | cons a as => exact absurd List.mem_cons_self (none a)

/-! ## The parts of an operation -/

/-- One event is entered. -/
theorem of_journal_add {e : Event} (h : m'.journal = m.journal.add e) (he : P e) :
    Enters P m m' := by
  refine ⟨?_, fun complete => ⟨[e], ?_, fun e' he' => ?_⟩⟩
  · rw [h, Journal.detail_add]
  · rw [h, Journal.toList_events_add complete]
  · rw [List.mem_singleton.mp he']
    exact he

theorem record {e : Event} (h : P e) (m : Machine) : Enters P m (m.record e) :=
  of_journal_add (journal_record m e) h

/-- A run of acts enters what each of them enters. -/
theorem of_run {Act : Machine → Machine → Prop} (acts : ∀ k k', Act k k' → Enters P k k')
    (run : ReflTransGen Act m m') : Enters P m m' := by
  induction run with
  | refl => exact refl P m
  | tail _ act ih => exact ih.trans (acts _ _ act)

theorem foldl {α : Type} {f : Machine → α → Machine} (acts : ∀ k a, Enters P k (f k a))
    (as : List α) (m : Machine) : Enters P m (as.foldl f m) := by
  induction as generalizing m with
  | nil => exact refl P m
  | cons a as ih => exact (acts m a).trans (ih (f m a))

theorem modifyTx (P : Event → Prop) (m : Machine) (f : TxRing → TxRing) :
    Enters P m (m.modifyTx f) :=
  of_journal_eq P rfl

theorem setTx (P : Event → Prop) (m : Machine) (r : TxRing) : Enters P m (m.setTx r) :=
  of_journal_eq P rfl

theorem give (noticed : ∀ n, P (.noticed n)) (m : Machine) (n : Notice) : Enters P m (m.give n) := by
  unfold Machine.give
  split
  · exact record (noticed n) m
  · exact refl P m

theorem giveIf (noticed : ∀ n, P (.noticed n)) (m : Machine) (condition : Bool) (n : Notice) :
    Enters P m (m.giveIf condition n) := by
  unfold Machine.giveIf
  split
  · exact give noticed m n
  · exact refl P m

/-- In its turn the adapter does what it has planned. -/
theorem turn_of_planned {permits : Move → Prop} (planned : Permitted permits m.agenda)
    (moved : ∀ mv, permits mv → P (.moved mv)) : Enters P m m.turn := by
  refine keeps_turn_of_planned planned (fun _ _ _ => of_journal_eq P rfl)
    (fun k mv permitted h => ?_) (refl P m)
  exact h.trans (of_journal_add (journal_move k mv) (moved mv permitted))

section Accesses

variable (moved : ∀ mv, P (.moved mv))

include moved

theorem move (m : Machine) (mv : Move) : Enters P m (m.move mv) :=
  of_journal_add (journal_move m mv) (moved mv)

theorem turn (m : Machine) : Enters P m m.turn :=
  keeps_turn (fun _ _ => of_journal_eq P rfl) (fun k mv h => h.trans (move moved k mv)) (refl P m)

theorem read {r : Register} (reads : ∀ v, P (.read r v)) (m : Machine) :
    Enters P m (m.read r).2 :=
  (turn moved m).trans (of_journal_add (journal_record _ _) (reads _))

theorem write {r : Register} {v : UInt32} (wrote : P (.wrote r v)) (m : Machine) :
    Enters P m (m.write r v) :=
  (turn moved m).trans (of_journal_add (journal_record _ _) wrote)

theorem writeTx {slot : Nat} {d : TxDescriptor} (wrote : P (.wroteTx slot d)) (m : Machine) :
    Enters P m (m.writeTx slot d) :=
  (turn moved m).trans (of_journal_add (journal_record _ _) wrote)

end Accesses

end Enters

/-! ## What is done -/

/-- Between two machines these things were done, one after the other, and no others. -/
structure Does (done : List Event) (m m' : Machine) : Prop where
  /-- The level of detail stays. -/
  detail : m'.journal.detail = m.journal.detail
  /-- What came at the end, and what of it was done. -/
  events : m.journal.detail = .complete →
    ∃ es, m'.journal.events.toList = m.journal.events.toList ++ es ∧ es.filter Event.isDone = done

namespace Does

variable {done done' : List Event} {m m' m'' : Machine}

/-- Nothing was done if all events are notices and moves. -/
theorem of_enters (h : m.Enters (fun e => e.isDone = false) m') : Does [] m m' := by
  refine ⟨h.detail, fun complete => ?_⟩
  obtain ⟨es, hes, all⟩ := h.events complete
  refine ⟨es, hes, List.filter_eq_nil_iff.mpr fun e he => ?_⟩
  rw [all e he]
  exact Bool.false_ne_true

theorem of_journal_eq (h : m'.journal = m.journal) : Does [] m m' := of_enters (.of_journal_eq _ h)

/-- One thing was done. -/
theorem of_journal_add {e : Event} (h : m'.journal = m.journal.add e) (does : e.isDone = true) :
    Does [e] m m' := by
  refine ⟨by rw [h, Journal.detail_add], fun complete => ⟨[e], ?_, List.filter_cons_of_pos does⟩⟩
  rw [h, Journal.toList_events_add complete]

theorem trans (h : Does done m m') (h' : Does done' m' m'') : Does (done ++ done') m m'' := by
  refine ⟨h'.detail.trans h.detail, fun complete => ?_⟩
  obtain ⟨es, hes, first⟩ := h.events complete
  obtain ⟨es', hes', second⟩ := h'.events (h.detail.trans complete)
  refine ⟨es ++ es', ?_, by rw [List.filter_append, first, second]⟩
  rw [hes', hes, List.append_assoc]

/-- A change that enters nothing may come after. -/
theorem quiet (h : Does done m m') (same : m''.journal = m'.journal) : Does done m m'' := by
  have both := h.trans (of_journal_eq same)
  rwa [List.append_nil] at both

theorem turn (m : Machine) : Does [] m m.turn := of_enters (.turn (fun _ => rfl) m)

theorem give (m : Machine) (n : Notice) : Does [] m (m.give n) := of_enters (.give (fun _ => rfl) m n)

theorem giveIf (m : Machine) (condition : Bool) (n : Notice) : Does [] m (m.giveIf condition n) :=
  of_enters (.giveIf (fun _ => rfl) m condition n)

/-- A notice may come after. -/
theorem given (h : Does done m m') (n : Notice) : Does done m (m'.give n) := by
  have both := h.trans (give m' n)
  rwa [List.append_nil] at both

theorem write (m : Machine) (reg : Register) (v : UInt32) : Does [.wrote reg v] m (m.write reg v) :=
  (turn m).trans (of_journal_add (journal_record _ _) rfl)

theorem read (m : Machine) (reg : Register) : Does [.read reg (m.read reg).1] m (m.read reg).2 :=
  (turn m).trans (of_journal_add (journal_record _ _) rfl)

end Does

end Machine

end DescriptorRings
