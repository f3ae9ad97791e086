import DescriptorRings.Proofs.Engine.Arbiter
import DescriptorRings.Proofs.Signal.Notification

/-!
# Disarming from inside a notification

Whoever disarms a direction waits until none of its notifications is in flight.  It is told not to
do so inside a notification of that direction, which could not return then.  That rule is not
enough.  A signal puts the notifications of all directions that it fires in flight together, and
tells one after the other; so the first of them may wait for another that has not even been called,
and is called only when the first has returned.

What happens inside of signals is told here call by call.  Each call has its *surrounding*: the
directions that are being told just then, and those that signals on the way have fired and have yet
to tell (`Surrounding`).  However deep the signals nest, just these notifications are in flight
(`keeps_amid`).  Hence the exact condition on which a signal returns: nobody in it disarms a
direction that is being told or due.  And as the receive direction is told last, there is one way
only to obey the rule and wait for good.
-/

namespace DescriptorRings

open List Relation Machine

/-! ## Where a call stands -/

/-- Where in the course of signals a call is made. -/
structure Surrounding where
  /-- The directions that are being told, those told last in front. -/
  told : List Direction := []
  /-- The directions that have been fired and are yet to be told. -/
  due : List Direction := []
  deriving DecidableEq, Repr

namespace Surrounding

variable {w : Surrounding} {d : Direction} {later : List Direction}

/-- How many notifications of a direction that makes. -/
def flight (w : Surrounding) (d : Direction) : Nat := w.told.count d + w.due.count d

/-- The surrounding of what one direction does when it is told, with others behind it. -/
def within (w : Surrounding) (d : Direction) (later : List Direction) : Surrounding :=
  ⟨d :: w.told, later ++ w.due⟩

theorem flight_within (e : Direction) :
    (w.within d later).flight e = w.flight e + (d :: later).count e := by
  show (d :: w.told).count e + (later ++ w.due).count e =
    w.told.count e + w.due.count e + (d :: later).count e
  rw [count_append, count_cons, count_cons]
  omega

theorem flight_eq_zero : w.flight d = 0 ↔ d ∉ w.told ∧ d ∉ w.due := by
  rw [flight, Nat.add_eq_zero_iff, count_eq_zero, count_eq_zero]

/-- Only the receive direction is told after another one, and that is the transmit direction. -/
def Ordered (w : Surrounding) : Prop := ∀ e ∈ w.due, e = .rx ∧ .tx ∈ w.told

theorem Ordered.within (h : w.Ordered) (order : ∀ e ∈ later, d = .tx ∧ e = .rx) :
    (w.within d later).Ordered := by
  intro e due
  rcases mem_append.mp due with here | before
  · obtain ⟨rfl, rfl⟩ := order e here
    exact ⟨rfl, mem_cons_self⟩
  · exact ⟨(h e before).1, mem_cons_of_mem d (h e before).2⟩

/-- The machine is where it is said to be: just these notifications are in flight. -/
structure Surrounds (w : Surrounding) (m : Machine) : Prop where
  /-- As many as that makes. -/
  flight : ∀ d, m.notifying d = w.flight d
  /-- Those who are due are in order. -/
  ordered : w.Ordered

end Surrounding

/-- A direction is disarmed. -/
structure Disarming where
  /-- Where that is done. -/
  around : Surrounding
  /-- The direction. -/
  direction : Direction
  /-- The machine when it comes to wait. -/
  machine : Machine

namespace Disarming

/-- It is not done inside a notification of the same direction. -/
def Allowed (x : Disarming) : Prop := x.direction ∉ x.around.told

/-- The direction is not one that is yet to be told. -/
def Timely (x : Disarming) : Prop := x.direction ∉ x.around.due

/-- The wait ends. -/
def Ends (x : Disarming) : Prop := x.machine.notifying x.direction = 0

instance (x : Disarming) : Decidable x.Allowed := inferInstanceAs (Decidable (_ ∉ _))

instance (x : Disarming) : Decidable x.Timely := inferInstanceAs (Decidable (_ ∉ _))

instance (x : Disarming) : Decidable x.Ends := inferInstanceAs (Decidable (_ = _))

/-- When a disarming is told as it is, its wait ends if it is allowed and timely. -/
theorem ends_iff {x : Disarming} (h : x.around.Surrounds x.machine) :
    x.Ends ↔ x.Allowed ∧ x.Timely := by
  rw [Ends, h.flight]
  exact Surrounding.flight_eq_zero

end Disarming

/-! ## Calls amid signals -/

/-- A step that has nothing to do with the arbiter. -/
structure Machine.Apart (m m' : Machine) : Prop where
  /-- The arbiter stays as it is. -/
  arbiter : m'.arbiter = m.arbiter
  /-- Nobody is waited for. -/
  stalled : m'.stalled = m.stalled

variable {Inner : Surrounding → List Disarming → Machine → Machine → Prop} {n : Nat}
  {w : Surrounding} {log log' : List Disarming} {m m' m'' : Machine} {u : Upper} {pending : UInt32}

/-- Those who are due are told in order, and each does something in its own surrounding. -/
inductive Tells (Inner : Surrounding → List Disarming → Machine → Machine → Prop)
    (w : Surrounding) : List Disarming → List Direction → Served → Prop
  /-- Nobody is due any more. -/
  | done (s : Served) : Tells Inner w [] [] s
  /-- One is told, and then the others. -/
  | tell {s : Served} {d : Direction} {later : List Direction} {log rest : List Disarming}
      (called : Inner (w.within d later) log (s.machine.record (.notified d)) (s.notify d).machine)
      (others : Tells Inner w rest later (deliverNotification s d)) :
      Tells Inner w (log ++ rest) (d :: later) s

/-- The disarmings while a signal is handled. -/
inductive Handles (Inner : Surrounding → List Disarming → Machine → Machine → Prop)
    (w : Surrounding) (m : Machine) (u : Upper) : UInt32 → List Disarming → Prop
  /-- A signal without causes is no signal. -/
  | idle : Handles Inner w m u 0 []
  /-- Those that it fires are told. -/
  | told {pending : UInt32} {log : List Disarming} (h : pending ≠ 0)
      (tells : Tells Inner w log (m.fired pending) (.start u (m.firing pending))) :
      Handles Inner w m u pending log

/-- A series of calls to the arbiter, and of other things, in one surrounding.  `Inner` is what may
be done in the notifications of its signals. -/
inductive Acts (Inner : Surrounding → List Disarming → Machine → Machine → Prop)
    (w : Surrounding) (m : Machine) : List Disarming → Machine → Prop
  /-- Nothing is done. -/
  | nothing : Acts Inner w m [] m
  /-- A direction is armed. -/
  | arm {log : List Disarming} {k : Machine} (before : Acts Inner w m log k) (d : Direction) :
      Acts Inner w m log (k.setArmed d true)
  /-- A direction is disarmed. -/
  | disarm {log : List Disarming} {k : Machine} (before : Acts Inner w m log k) (d : Direction) :
      Acts Inner w m (log ++ [⟨w, d, k.switched d false⟩]) (k.setArmed d false)
  /-- A signal is handled. -/
  | signal {log inner : List Disarming} {k : Machine} {u : Upper} {pending : UInt32}
      (before : Acts Inner w m log k) (handles : Handles Inner w k u pending inner) :
      Acts Inner w m (log ++ inner) (k.signal u pending).2.machine
  /-- Something else is done. -/
  | other {log : List Disarming} {k k' : Machine} (before : Acts Inner w m log k)
      (apart : k.Apart k') : Acts Inner w m log k'

/-- Calls that nest no deeper than so many signals. -/
def Amid : Nat → Surrounding → List Disarming → Machine → Machine → Prop
  | 0 => fun _ log m m' => log = [] ∧ m.Apart m'
  | n + 1 => fun w log m m' => Acts (Amid n) w m log m'

/-- What can be told as such calls wherever it is done. -/
def Tellable (n : Nat) (m m' : Machine) : Prop := ∀ w, ∃ log, Amid n w log m m'

theorem amid_refl (n : Nat) (w : Surrounding) (m : Machine) : Amid n w [] m m := by
  cases n with
  | zero => exact ⟨rfl, rfl, rfl⟩
  | succ n => exact .nothing

theorem Acts.trans (first : Acts Inner w m log m') (second : Acts Inner w m' log' m'') :
    Acts Inner w m (log ++ log') m'' := by
  induction second with
  | nothing => rwa [append_nil]
  | arm _ d ih => exact ih.arm d
  | disarm _ d ih =>
    rw [← append_assoc]
    exact ih.disarm d
  | signal _ handles ih =>
    rw [← append_assoc]
    exact ih.signal handles
  | other _ apart ih => exact ih.other apart

theorem Amid.trans (first : Amid n w log m m') (second : Amid n w log' m' m'') :
    Amid n w (log ++ log') m m'' := by
  cases n with
  | zero =>
    obtain ⟨rfl, apart⟩ := first
    obtain ⟨rfl, apart'⟩ := second
    exact ⟨rfl, apart'.arbiter.trans apart.arbiter, apart'.stalled.trans apart.stalled⟩
  | succ n => exact Acts.trans first second

theorem Tellable.run (run : ReflTransGen (Tellable n) m m') : Tellable n m m' := by
  intro w
  induction run with
  | refl => exact ⟨[], amid_refl n w m⟩
  | tail _ step ih =>
    obtain ⟨log, before⟩ := ih
    obtain ⟨log', after⟩ := step w
    exact ⟨log ++ log', before.trans after⟩

theorem exists_tells (w : Surrounding) {s : Served} (abides : s.upper.Abides (Tellable n))
    (due : List Direction) : ∃ log, Tells (Amid n) w log due s := by
  induction due generalizing s with
  | nil => exact ⟨[], .done s⟩
  | cons d later ih =>
    let told : Served := s.onMachine fun m => m.record (.notified d)
    obtain ⟨log, called⟩ :=
      Tellable.run (Served.run_reply (s := told) abides) (w.within d later)
    obtain ⟨rest, others⟩ :=
      ih (s := deliverNotification s d) (Served.abides_reply (s := told) abides)
    exact ⟨log ++ rest, .tell called others⟩

/-- Whatever can be told in the notifications of a signal can be told of the signal. -/
theorem exists_handles (w : Surrounding) (m : Machine) (abides : u.Abides (Tellable n))
    (pending : UInt32) : ∃ log, Handles (Amid n) w m u pending log := by
  by_cases none : pending = 0
  · subst none
    exact ⟨[], .idle⟩
  · obtain ⟨log, tells⟩ := exists_tells (s := .start u (m.firing pending)) w abides (m.fired pending)
    exact ⟨log, .told none tells⟩

/-! ## What is in flight -/

/-- Disarmings are told as they are, and the machine goes on just when each of their waits ends. -/
structure Recounts (log : List Disarming) (m m' : Machine) : Prop where
  /-- Each is where it is said to be. -/
  surrounded : ∀ x ∈ log, x.around.Surrounds x.machine
  /-- Whether the machine goes on. -/
  goes : m'.stalled = none ↔ m.stalled = none ∧ ∀ x ∈ log, x.Ends

namespace Recounts

theorem of_stalled_eq (h : m'.stalled = m.stalled) : Recounts [] m m' :=
  ⟨fun _ h => absurd h not_mem_nil, by simp [h]⟩

theorem append (h : Recounts log m m') (h' : Recounts log' m' m'') :
    Recounts (log ++ log') m m'' where
  surrounded x hx := (mem_append.mp hx).elim (h.surrounded x) (h'.surrounded x)
  goes := by rw [h'.goes, h.goes, and_assoc, forall_mem_append]

end Recounts

/-- Whatever is done in a surrounding leaves it as it is, and is told as it is. -/
def Keeps (Act : Surrounding → List Disarming → Machine → Machine → Prop) : Prop :=
  ∀ w log m m', Act w log m m' → w.Surrounds m → w.Surrounds m' ∧ Recounts log m m'

namespace Surrounding.Surrounds

theorem of_sameFlight (h : w.Surrounds m) (same : m.SameFlight m') : w.Surrounds m' :=
  ⟨fun d => (same d).trans (h.flight d), h.ordered⟩

/-- **A direction is disarmed**, and found in flight as often as it is told or due. -/
theorem disarm (h : w.Surrounds m) (d : Direction) :
    Recounts [⟨w, d, m.switched d false⟩] m (m.setArmed d false) where
  surrounded x hx := by
    rw [mem_singleton.mp hx]
    exact h.of_sameFlight (.switched m d false)
  goes := by
    rw [Machine.setArmed_false, Machine.awaitQuiet_eq, forall_mem_singleton, Disarming.Ends]
    by_cases quiet : (m.switched d false).notifying d = 0
    · simp [quiet, (m.arbiter_switched d false).2]
    · simp [quiet]

end Surrounding.Surrounds

/-- While those who are due are told, the others stay in flight. -/
theorem Tells.recounts (keeps : Keeps Inner) {due : List Direction} {s : Served}
    (tells : Tells Inner w log due s)
    (flight : ∀ d, s.machine.notifying d = w.flight d + due.count d) (ordered : w.Ordered)
    (order : due.Pairwise fun d e => d = .tx ∧ e = .rx) :
    w.Surrounds (due.foldl deliverNotification s).machine ∧
      Recounts log s.machine (due.foldl deliverNotification s).machine := by
  induction tells with
  | done s => exact ⟨⟨flight, ordered⟩, .of_stalled_eq rfl⟩
  | @tell s d later log rest called _ ih =>
    obtain ⟨front, order⟩ := pairwise_cons.mp order
    have inside : (w.within d later).Surrounds (s.machine.record (.notified d)) := by
      refine ⟨fun e => ?_, ordered.within front⟩
      rw [Surrounding.flight_within, ← flight e]
      exact Machine.SameFlight.record _ _ e
    obtain ⟨after, first⟩ := keeps _ _ _ _ called inside
    have left (e : Direction) :
        (deliverNotification s d).machine.notifying e = w.flight e + later.count e := by
      have returned := (s.notify d).machine.notifying_settle d e
      have both : (d :: later).count e = [d].count e + later.count e := by
        rw [← count_append]
        rfl
      rw [after.flight e, Surrounding.flight_within, both] at returned
      exact returned.trans (by omega)
    have unstalled : (s.machine.record (.notified d)).stalled = s.machine.stalled := by
      rw [Machine.toScene_record]
    have entered : Recounts log s.machine (deliverNotification s d).machine := by
      refine ⟨first.surrounded, ?_⟩
      rw [← unstalled]
      exact first.goes
    obtain ⟨outside, second⟩ := ih left order
    exact ⟨outside, entered.append second⟩

theorem pairwise_fired (m : Machine) (pending : UInt32) :
    (m.fired pending).Pairwise fun d e => d = .tx ∧ e = .rx := by
  rw [Machine.fired]
  cases m.arbiter with
  | none => exact .nil
  | some a =>
    have order : Direction.all.Pairwise fun d e => d = .tx ∧ e = .rx := by decide
    exact order.filter fun d => hasBits pending d.mask && a.isArmed d

/-- A signal that is handled somewhere leaves in flight what was in flight there. -/
theorem Handles.recounts (keeps : Keeps Inner) (handles : Handles Inner w m u pending log)
    (h : w.Surrounds m) :
    w.Surrounds (m.signal u pending).2.machine ∧ Recounts log m (m.signal u pending).2.machine := by
  cases handles with
  | idle => exact ⟨h, .of_stalled_eq rfl⟩
  | told causes tells =>
    rw [Machine.signal_eq m u causes]
    have flight (d : Direction) :
        (m.firing pending).notifying d = w.flight d + (m.fired pending).count d := by
      rw [Machine.notifying_firing, h.flight]
    obtain ⟨outside, told⟩ :=
      tells.recounts keeps flight h.ordered (pairwise_fired m pending)
    exact ⟨outside, (Recounts.of_stalled_eq (m.stalled_firing pending)).append told⟩

theorem Acts.recounts (keeps : Keeps Inner) (acts : Acts Inner w m log m') (h : w.Surrounds m) :
    w.Surrounds m' ∧ Recounts log m m' := by
  induction acts with
  | nothing => exact ⟨h, .of_stalled_eq rfl⟩
  | @arm log k _ d ih =>
    obtain ⟨before, told⟩ := ih
    have arms := (k.arbiter_switched d true).2
    refine ⟨before.of_sameFlight (.setArmed _ _ _), ?_⟩
    rw [← append_nil log]
    exact told.append (.of_stalled_eq arms)
  | disarm _ d ih =>
    obtain ⟨before, told⟩ := ih
    exact ⟨before.of_sameFlight (.setArmed _ _ _), told.append (before.disarm d)⟩
  | signal _ handles ih =>
    obtain ⟨before, told⟩ := ih
    obtain ⟨after, inner⟩ := handles.recounts keeps before
    exact ⟨after, told.append inner⟩
  | @other log _ _ _ apart ih =>
    obtain ⟨before, told⟩ := ih
    refine ⟨before.of_sameFlight (.of_arbiter_eq apart.arbiter), ?_⟩
    rw [← append_nil log]
    exact told.append (.of_stalled_eq apart.stalled)

/-- **Just those who are told or due are in flight**, however deep the signals nest. -/
theorem keeps_amid (n : Nat) : Keeps (Amid n) := by
  induction n with
  | zero =>
    rintro w log m m' ⟨rfl, apart⟩ h
    exact ⟨h.of_sameFlight (.of_arbiter_eq apart.arbiter), .of_stalled_eq apart.stalled⟩
  | succ n ih =>
    intro w log m m' acts h
    exact Acts.recounts ih acts h

/-! ## Waits -/

/-- What becomes of the waits while a signal is handled. -/
structure Waiting (m : Machine) (u : Upper) (pending : UInt32) (log : List Disarming) : Prop where
  /-- A direction is found in flight as often as it is being told or due. -/
  found : ∀ x ∈ log, x.machine.notifying x.direction =
    x.around.told.count x.direction + x.around.due.count x.direction
  /-- The signal returns just when nobody disarms a direction that is being told or due. -/
  returns : (m.signal u pending).2.machine.stalled = none ↔ ∀ x ∈ log, x.Allowed ∧ x.Timely
  /-- Whoever keeps to the rule waits for good only for the receive direction, while the transmit
  direction is told in front of it. -/
  late : ∀ x ∈ log, x.Allowed → ¬x.Ends → x.direction = .rx ∧ .tx ∈ x.around.told
  /-- Afterwards there is in flight what was in flight before. -/
  restored : ∀ d, (m.signal u pending).2.machine.notifying d = m.notifying d

/-- **Which waits end.**  A signal is handled, at the outermost or amid others, and its
notifications do whatever they like.  There is an account of the disarmings in them, and by any such
account the signal returns just when nobody disarms a direction that is being told or due. -/
theorem mindful_callbacks_never_wait (inside : w.Surrounds m) (going : m.stalled = none)
    (abides : u.Abides (Tellable n)) (pending : UInt32) :
    (∃ log, Handles (Amid n) w m u pending log) ∧
      ∀ log, Handles (Amid n) w m u pending log → Waiting m u pending log := by
  refine ⟨exists_handles w m abides pending, fun log handles => ?_⟩
  obtain ⟨outside, told⟩ := handles.recounts (keeps_amid n) inside
  refine ⟨fun x hx => (told.surrounded x hx).flight x.direction, ?_, fun x hx allowed waits => ?_,
    fun d => (outside.flight d).trans (inside.flight d).symm⟩
  · rw [told.goes]
    constructor
    · intro ends x hx
      exact (Disarming.ends_iff (told.surrounded x hx)).mp (ends.2 x hx)
    · intro ends
      exact ⟨going, fun x hx => (Disarming.ends_iff (told.surrounded x hx)).mpr (ends x hx)⟩
  · have place := told.surrounded x hx
    have late : x.direction ∈ x.around.due := by
      by_contra timely
      exact waits ((Disarming.ends_iff place).mpr ⟨allowed, timely⟩)
    exact place.ordered x.direction late

/-- Both directions are armed, and nobody is being told. -/
def bothArmed : Machine := (unused.createArbiter.setArmed .tx true).setArmed .rx true

theorem surrounds_bothArmed : ({} : Surrounding).Surrounds bothArmed :=
  ⟨fun d => by cases d <;> decide +kernel, fun _ h => absurd h not_mem_nil⟩

/-- The transmit direction is armed again inside its notification, and fired by a signal that is
handled there.  The receive direction, told last, disarms it. -/
theorem mindful_callbacks_never_wait_nested :
    ∃ u : Upper, ({} : Surrounding).Surrounds bothArmed ∧ bothArmed.stalled = none ∧
      u.Abides (Tellable 1) ∧ (bothArmed.signal u 3).2.machine.stalled = none ∧
      (∃ log, Handles (Amid 1) {} bothArmed u 3 log) ∧
        ∀ log, Handles (Amid 1) {} bothArmed u 3 log → Waiting bothArmed u 3 log := by
  let again (m : Machine) : Machine :=
    ((m.setArmed .tx true).signal .silent IrqMask.txDone).2.machine
  let quit (m : Machine) : Machine := m.setArmed .tx false
  have abides : ({ replies := [again, quit] } : Upper).Abides (Tellable 1) := by
    intro reply h m
    rcases mem_pair.mp h with rfl | rfl
    · refine .single fun w => ?_
      obtain ⟨log, handles⟩ := exists_handles w (m.setArmed .tx true)
        (Upper.abides_silent (Tellable 0)) IrqMask.txDone
      exact ⟨_, (Acts.nothing.arm .tx).signal handles⟩
    · exact .single fun w => ⟨_, Acts.nothing.disarm .tx⟩
  have going : bothArmed.stalled = none := by decide +kernel
  exact ⟨_, surrounds_bothArmed, going, abides, by decide +kernel,
    mindful_callbacks_never_wait surrounds_bothArmed going abides 3⟩

/-- **The rule alone does not do.**  Both directions are fired by one signal, and the notification
of the transmit direction disarms the receive direction.  That is allowed, but it finds a
notification in flight, and waits for good. -/
theorem documented_rule_lets_callbacks_wait :
    let u : Upper := { replies := [fun m => m.setArmed .rx false] }
    ({} : Surrounding).Surrounds bothArmed ∧
      (∃ x, Handles (Amid 1) {} bothArmed u 3 [x] ∧ x.Allowed ∧
        x.machine.notifying x.direction = 1) ∧
      (bothArmed.signal u 3).2.machine.stalled = some .rx := by
  intro u
  have fired : bothArmed.fired 3 = [.tx, .rx] := by decide +kernel
  let s : Served := .start u (bothArmed.firing 3)
  let x : Disarming := ⟨⟨[.tx], [.rx]⟩, .rx, (s.machine.record (.notified .tx)).switched .rx false⟩
  have tells : Tells (Amid 1) {} [x] (bothArmed.fired 3) s := by
    have first : Amid 1 ⟨[.tx], [.rx]⟩ [x] _ (s.notify .tx).machine := Acts.nothing.disarm .rx
    let told : Served := deliverNotification s .tx
    have second : Amid 1 ⟨[.rx], []⟩ [] (told.machine.record (.notified .rx))
        (told.notify .rx).machine := amid_refl 1 _ _
    have rest : Tells (Amid 1) {} ([] ++ []) [.rx] told := .tell second (.done _)
    rw [fired]
    exact .tell first rest
  exact ⟨surrounds_bothArmed, ⟨x, .told (by decide) tells, by decide, by decide +kernel⟩,
    by decide +kernel⟩

end DescriptorRings
