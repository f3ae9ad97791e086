import DescriptorRings.Proofs.Engine.Arbiter
import DescriptorRings.Proofs.Signal.Transcript

/-!
# One-shot notifications

Whoever arms a direction is told once, by the next signal that has it pending.  In between the upper
layer may do as it likes: it may arm again from inside the notification, disarm, and even handle
further signals there, which notify it in turn.

Which calls are made is written down as they are made, those inside a notification where it is
given (`Calls`, `Telling`).  The journal of the machine holds the marks that the calls have left
(`Journal.marks`), and these are a transcript with just the calls in it, however deep they nest
(`transcribes_nested`).  What can be said of transcripts is then said of the calls: armings and
notifications balance, and every notification belongs to a signal that fired it.

The register in which the adapter is allowed to interrupt is written anew whenever the arms have
changed.  For a moment it lags behind, between the change and the write; but not when a call has
returned, and not while the upper layer is being told (`Scene.Enabled`).  This takes that nobody
else writes that register.
-/

namespace DescriptorRings

open List Relation

/-! ## Marks in the journal -/

/-- The mark that an event leaves. -/
def Event.mark? : Event → Option Mark
  | .armed d before after => some (.armed d before after)
  | .wrote .irqClear pending => some (.raised pending)
  | .wrote .irqEnable mask => some (.enabled mask)
  | .notified d => some (.told d)
  | _ => none

/-- The marks so far. -/
def Journal.marks (j : Journal) : List Mark := j.pick Event.mark?

/-- A call that arms or disarms a direction, and how it found the direction. -/
structure Arming where
  /-- The direction. -/
  direction : Direction
  /-- Whether it was armed before. -/
  found : Bool
  /-- Whether it is to be armed. -/
  on : Bool
  deriving DecidableEq, Repr

/-- The call that has left a mark, if it armed or disarmed. -/
def Mark.arming? : Mark → Option Arming
  | .armed d before after => some ⟨d, before, after⟩
  | _ => none

theorem Mark.count_arming? (xs : List Mark) (d : Direction) (found on : Bool) :
    (xs.filterMap arming?).count ⟨d, found, on⟩ = xs.count (.armed d found on) := by
  induction xs with
  | nil => rfl
  | cons x xs ih => cases x <;> simp [arming?, filterMap_cons, count_cons, ih]

/-- Whether the register agrees with the arms again after a mark. -/
def Mark.settles : Mark → Bool
  | .enabled _ | .told _ => true
  | .armed _ _ _ | .raised _ => false

/-- After such a mark the arms have not changed any more. -/
def Mark.Settled (xs : List Mark) : Prop := ∃ x, xs.getLast? = some x ∧ x.settles = true

theorem settled_concat {xs : List Mark} {x : Mark} : Mark.Settled (xs ++ [x]) ↔ x.settles = true := by
  simp [Mark.Settled]

/-- The adapter may interrupt for just the armed directions, unless the arms are being changed. -/
def Scene.Enabled (s : Scene) : Prop :=
  Mark.Settled s.journal.marks → ∀ a, s.arbiter = some a → s.adapter.read .irqEnable = a.enabledMask

namespace Machine

variable {m m' : Machine} {a b : Arbiter} {xs ys : List Mark} {watched : Prop}

/-! ## The arbiter of a machine -/

/-- A machine has an arbiter, and its journal holds certain marks.  If it is *watched*, nobody else
writes the register, and the register has been right so far. -/
structure Attends (watched : Prop) (m : Machine) (xs : List Mark) (a : Arbiter) : Prop where
  /-- The arbiter. -/
  arbiter : m.arbiter = some a
  /-- Every event is kept. -/
  complete : m.journal.detail = .complete
  /-- The marks. -/
  marks : m.journal.marks = xs
  /-- The moves that the adapter has planned leave the register alone. -/
  planned : watched → Permitted (Move.Spares .irqEnable) m.agenda
  /-- The register is right, and was at every moment. -/
  seen : watched → m.Throughout Scene.Enabled

/-- A step that has nothing to do with the arbiter. -/
structure Aside (m m' : Machine) : Prop where
  /-- The arbiter stays as it is. -/
  arbiter : m'.arbiter = m.arbiter
  /-- Nobody writes the register. -/
  register : m'.adapter.read .irqEnable = m.adapter.read .irqEnable
  /-- No mark is left. -/
  journal : m.journal.detail = .complete →
    m'.journal.detail = .complete ∧ m'.journal.marks = m.journal.marks
  /-- No one plans to write it. -/
  planned : Permitted (Move.Spares .irqEnable) m.agenda →
    Permitted (Move.Spares .irqEnable) m'.agenda
  /-- At most one event happens, and that at the end. -/
  remembers : Remembers m m'

/-- An event that leaves no mark is entered. -/
theorem aside_record (m : Machine) {e : Event} (unmarked : e.mark? = none) :
    m.Aside (m.record e) where
  arbiter := by rw [toScene_record]
  register := by rw [toScene_record]
  journal complete := by
    rw [journal_record, Journal.detail_add]
    exact ⟨complete, Journal.pick_add_of_none complete unmarked⟩
  planned h := by rwa [agenda_record]
  remembers := remembers_record m e

theorem aside_move (m : Machine) {mv : Move} (spares : mv.Spares .irqEnable) :
    m.Aside (m.move mv) where
  arbiter := by rw [toScene_move]
  register := by
    rw [toScene_move]
    exact spares m.adapter
  journal complete := by
    rw [journal_move, Journal.detail_add]
    exact ⟨complete, Journal.pick_add_of_none complete rfl⟩
  planned h := by rwa [agenda_move]
  remembers := remembers_move m mv

namespace Attends

theorem enabled (h : Attends watched m xs a) (look : watched) (settled : Mark.Settled xs) :
    m.adapter.read .irqEnable = a.enabledMask := by
  obtain ⟨past, -, all⟩ := h.seen look
  have now := all m.toScene mem_cons_self
  rw [Scene.Enabled, h.marks] at now
  exact now settled a h.arbiter

theorem aside (h : Attends watched m xs a) (step : m.Aside m') : Attends watched m' xs a where
  arbiter := step.arbiter.trans h.arbiter
  complete := (step.journal h.complete).1
  marks := (step.journal h.complete).2.trans h.marks
  planned look := step.planned (h.planned look)
  seen look := by
    refine (h.seen look).of_remembers step.remembers ?_
    intro settled a' here
    rw [(step.journal h.complete).2, h.marks] at settled
    obtain rfl := Option.some.inj ((step.arbiter.trans h.arbiter).symm.trans here)
    exact step.register.trans (h.enabled look settled)

theorem move (h : Attends watched m xs a) {mv : Move}
    (spares : watched → mv.Spares .irqEnable) : Attends watched (m.move mv) xs a where
  arbiter := by rw [toScene_move, h.arbiter]
  complete := by rw [journal_move, Journal.detail_add, h.complete]
  marks := by
    rw [journal_move, ← h.marks]
    exact Journal.pick_add_of_none h.complete rfl
  planned look := (h.aside (aside_move m (spares look))).planned look
  seen look := (h.aside (aside_move m (spares look))).seen look

theorem turn (h : Attends watched m xs a) : Attends watched m.turn xs a := by
  have planned : Permitted (fun mv => watched → mv.Spares .irqEnable) m.agenda :=
    fun ms hms mv hmv look => h.planned look ms hms mv hmv
  refine keeps_turn_of_planned (P := fun k => Attends watched k xs a) planned (fun later fewer _ => ?_)
    (fun k mv spares hk => hk.move spares) h
  exact h.aside ⟨rfl, rfl, fun complete => ⟨complete, rfl⟩,
    fun planned ms' h' => planned ms' (fewer h'), .inl rfl⟩

/-- An event that leaves a mark is entered, after the adapter or the arbiter has changed. -/
theorem mark (h : Attends watched m xs a) {e : Event} {x : Mark} (leaves : e.mark? = some x)
    (journal : m'.journal = m.journal) (agenda : m'.agenda = m.agenda)
    (moments : m'.moments = m.moments) (arbiter : m'.arbiter = some b)
    (now : watched → x.settles = true → m'.adapter.read .irqEnable = b.enabledMask) :
    Attends watched (m'.record e) (xs ++ [x]) b := by
  have marks : (m'.record e).journal.marks = xs ++ [x] := by
    rw [journal_record, journal, ← h.marks]
    refine (Journal.pick_add h.complete Event.mark? e).trans ?_
    rw [leaves]
    rfl
  refine ⟨?_, ?_, marks, fun look => ?_, fun look => ?_⟩
  · rw [toScene_record, arbiter]
  · rw [journal_record, Journal.detail_add, journal, h.complete]
  · rw [agenda_record, agenda]
    exact h.planned look
  · refine (h.seen look).of_remembers (.inr ?_) ?_
    · rw [moments_record, moments]
    · intro settled b' here
      rw [marks, settled_concat] at settled
      rw [toScene_record] at here ⊢
      obtain rfl := Option.some.inj (arbiter.symm.trans here)
      exact now look settled

/-- The arbiter changes without any event.  That is not done while the register is to be right,
unless the arms stay as they are. -/
theorem modify (h : Attends watched m xs a) (f : Arbiter → Arbiter)
    (keeps : Mark.Settled xs → (f a).enabledMask = a.enabledMask) :
    Attends watched (m.modifyArbiter f) xs (f a) := by
  have arbiter : (m.modifyArbiter f).arbiter = some (f a) := congrArg (Option.map f) h.arbiter
  refine ⟨arbiter, h.complete, h.marks, h.planned, fun look => ?_⟩
  refine (h.seen look).of_remembers (.inl rfl) ?_
  intro settled b here
  obtain rfl := Option.some.inj (arbiter.symm.trans here)
  have settled : Mark.Settled xs := h.marks ▸ settled
  exact (h.enabled look settled).trans (keeps settled).symm

/-! ## What the calls are made of -/

/-- The adapter may interrupt for just the armed directions again. -/
theorem writeEnabled (h : Attends watched m xs a) :
    Attends watched m.writeEnabled (xs ++ [.enabled a.enabledMask]) a := by
  have mask : (m.arbiter.map Arbiter.enabledMask).getD 0 = a.enabledMask := by rw [h.arbiter]; rfl
  rw [Machine.writeEnabled, mask]
  exact h.turn.mark rfl rfl rfl rfl h.turn.arbiter fun _ _ => Adapter.read_write_self _ _ _

/-- A signal is acknowledged. -/
theorem acknowledge (h : Attends watched m xs a) (pending : UInt32) :
    Attends watched (m.write .irqClear pending) (xs ++ [.raised pending]) a :=
  h.turn.mark rfl rfl rfl rfl h.turn.arbiter fun _ settles => absurd settles Bool.false_ne_true

theorem give (h : Attends watched m xs a) (n : Notice) : Attends watched (m.give n) xs a := by
  unfold Machine.give
  split
  · exact h.aside (aside_record m rfl)
  · exact h

end Attends

/-! ## Between calls -/

/-- Nobody is changing the arms just now. -/
structure AtRest (watched : Prop) (m : Machine) (xs : List Mark) (a : Arbiter) : Prop extends
    Attends watched m xs a where
  /-- The latest mark is one after which the register is right. -/
  settled : watched → Mark.Settled xs

theorem Attends.atRest {x : Mark} (h : Attends watched m (xs ++ [x]) a)
    (settles : x.settles = true) : AtRest watched m (xs ++ [x]) a :=
  ⟨h, fun _ => settled_concat.mpr settles⟩

namespace AtRest

/-- The upper layer is told. -/
theorem told (h : AtRest watched m xs a) (d : Direction) :
    AtRest watched (m.record (.notified d)) (xs ++ [.told d]) a := by
  have left : Attends watched (m.record (.notified d)) (xs ++ [.told d]) a :=
    h.toAttends.mark rfl rfl rfl rfl h.arbiter fun look _ => h.enabled look (h.settled look)
  exact left.atRest rfl

/-- A step that has nothing to do with the arbiter. -/
theorem aside (h : AtRest watched m xs a) (step : m.Aside m') : AtRest watched m' xs a :=
  ⟨h.toAttends.aside step, h.settled⟩

/-- **A direction is armed or disarmed.** -/
theorem setArmed (h : AtRest watched m xs a) (d : Direction) (on : Bool) :
    AtRest watched (m.setArmed d on)
      (xs ++ [.armed d (a.isArmed d) on, .enabled (a.setArmed d on).enabledMask])
      (a.setArmed d on) := by
  have found : (m.arbiter.any fun a => a.isArmed d) = a.isArmed d := by rw [h.arbiter]; rfl
  have changed : Attends watched
      ((m.modifyArbiter fun a => a.setArmed d on).record (.armed d (a.isArmed d) on))
      (xs ++ [.armed d (a.isArmed d) on]) (a.setArmed d on) :=
    h.toAttends.mark rfl rfl rfl rfl (congrArg (Option.map _) h.arbiter)
      fun _ settles => absurd settles Bool.false_ne_true
  have written := (changed.writeEnabled.give (.armed d on)).atRest rfl
  rw [append_assoc] at written
  unfold Machine.setArmed
  rw [found]
  cases on with
  | true => exact written
  | false =>
    have waits (k : Machine) : k.Aside (k.awaitQuiet d) := by
      unfold awaitQuiet
      split <;> exact ⟨rfl, rfl, fun complete => ⟨complete, rfl⟩, id, .inl rfl⟩
    exact written.aside (waits _)

end AtRest

/-! ## Calls, and calls within calls -/

/-- What is called when a direction is armed or disarmed. -/
def arming (m : Machine) (d : Direction) (on : Bool) : Arming :=
  ⟨d, m.arbiter.any fun a => a.isArmed d, on⟩

variable {Inner : List Arming → Machine → Machine → Prop} {n : Nat} {calls calls' : List Arming}
  {s : Served} {u : Upper} {pending : UInt32} {due : List Direction}

/-- Those who are due are told, one after the other, and each calls the arbiter in its turn.  The list
has the directions that are armed and disarmed by that. -/
inductive Telling (Inner : List Arming → Machine → Machine → Prop) :
    List Direction → List Arming → Served → Prop
  /-- Nobody is due any more. -/
  | done (s : Served) : Telling Inner [] [] s
  /-- One is told, and then the others. -/
  | tell {s : Served} {d : Direction} {due : List Direction} {calls later : List Arming}
      (called : Inner calls (s.machine.record (.notified d)) (s.notify d).machine)
      (others : Telling Inner due later (deliverNotification s d)) :
      Telling Inner (d :: due) (calls ++ later) s

/-- The calls that are made while a signal is handled. -/
inductive Handling (Inner : List Arming → Machine → Machine → Prop) (m : Machine) (u : Upper)
    (pending : UInt32) : List Arming → Prop
  /-- A signal without causes is no signal. -/
  | idle (none : pending = 0) : Handling Inner m u pending []
  /-- Those that it fires are told. -/
  | told {calls : List Arming} (some : pending ≠ 0)
      (telling : Telling Inner (m.fired pending) calls (.start u (m.firing pending))) :
      Handling Inner m u pending calls

/-- A series of calls to the arbiter, and of things that have nothing to do with it.  `Inner` is what
may be called in the notifications of its signals. -/
inductive Calls (Inner : List Arming → Machine → Machine → Prop) (m : Machine) :
    List Arming → Machine → Prop
  /-- Nothing is called. -/
  | nothing : Calls Inner m [] m
  /-- A direction is armed or disarmed. -/
  | setArmed {calls : List Arming} {k : Machine} (before : Calls Inner m calls k) (d : Direction)
      (on : Bool) : Calls Inner m (calls ++ [k.arming d on]) (k.setArmed d on)
  /-- A signal is handled. -/
  | signal {calls inner : List Arming} {k : Machine} {u : Upper} {pending : UInt32}
      (before : Calls Inner m calls k) (handling : Handling Inner k u pending inner) :
      Calls Inner m (calls ++ inner) (k.signal u pending).2.machine
  /-- Something else is done. -/
  | aside {calls : List Arming} {k k' : Machine} (before : Calls Inner m calls k)
      (step : k.Aside k') : Calls Inner m calls k'

/-- Calls that nest less deep than so many signals. -/
def Nested : Nat → List Arming → Machine → Machine → Prop
  | 0 => fun calls m m' => calls = [] ∧ m' = m
  | n + 1 => fun calls m m' => Calls (Nested n) m calls m'

/-- What can be told as such calls. -/
def Callable (n : Nat) (m m' : Machine) : Prop := ∃ calls, Nested n calls m m'

theorem Calls.trans {m'' : Machine} (first : Calls Inner m calls m')
    (second : Calls Inner m' calls' m'') : Calls Inner m (calls ++ calls') m'' := by
  induction second with
  | nothing => rwa [append_nil]
  | setArmed _ d on ih =>
    rw [← append_assoc]
    exact ih.setArmed d on
  | signal _ handling ih =>
    rw [← append_assoc]
    exact ih.signal handling
  | aside _ step ih => exact ih.aside step

/-- Calls one after the other are calls. -/
theorem Callable.run (run : ReflTransGen (Callable n) m m') : Callable n m m' := by
  induction run with
  | refl =>
    cases n with
    | zero => exact ⟨[], rfl, rfl⟩
    | succ n => exact ⟨[], .nothing⟩
  | tail _ step ih =>
    obtain ⟨calls, before⟩ := ih
    obtain ⟨calls', after⟩ := step
    cases n with
    | zero =>
      obtain ⟨-, rfl⟩ := before
      exact ⟨calls', after⟩
    | succ n => exact ⟨calls ++ calls', Calls.trans before after⟩

/-- If the upper layer does nothing but call, it calls something when it is told. -/
theorem exists_telling (abides : s.upper.Abides (Callable n)) (due : List Direction) :
    ∃ calls, Telling (Nested n) due calls s := by
  induction due generalizing s with
  | nil => exact ⟨[], .done s⟩
  | cons d due ih =>
    let told : Served := s.onMachine fun m => m.record (.notified d)
    obtain ⟨calls, called⟩ := Callable.run (Served.run_reply (s := told) abides)
    obtain ⟨later, others⟩ :=
      ih (s := deliverNotification s d) (Served.abides_reply (s := told) abides)
    exact ⟨calls ++ later, .tell called others⟩

/-- **Every signal has its calls**, if the upper layer does nothing but call. -/
theorem exists_handling (m : Machine) (abides : u.Abides (Callable n)) (pending : UInt32) :
    ∃ calls, Handling (Nested n) m u pending calls := by
  by_cases none : pending = 0
  · exact ⟨[], .idle none⟩
  · obtain ⟨calls, telling⟩ := exists_telling (s := .start u (m.firing pending)) abides
      (m.fired pending)
    exact ⟨calls, .told none telling⟩

/-- Whatever is called leaves a transcript of its marks, with just these armings in it. -/
def Transcribes (watched : Prop) (Act : List Arming → Machine → Machine → Prop) : Prop :=
  ∀ calls m m' xs a, Act calls m m' → AtRest watched m xs a →
    ∃ ys b, Transcript [] a ys b ∧ ys.filterMap Mark.arming? = calls ∧
      AtRest watched m' (xs ++ ys) b

/-- **Those who are due are told**, and what they call when they are told stands below. -/
theorem Telling.transcript (each : Transcribes watched Inner) (telling : Telling Inner due calls s)
    (h : AtRest watched s.machine xs a) :
    ∃ ys b, Transcript due a ys b ∧ ys.filterMap Mark.arming? = calls ∧
      AtRest watched (due.foldl deliverNotification s).machine (xs ++ ys) b := by
  induction telling generalizing xs a with
  | done s => exact ⟨[], a, .nil a, rfl, by rwa [append_nil]⟩
  | @tell s d due calls later called _ ih =>
    obtain ⟨ys, b, inside, armings, returned⟩ := each _ _ _ _ _ called (h.told d)
    have settled : AtRest watched (deliverNotification s d).machine (xs ++ [.told d] ++ ys)
        (b.settle d) := ⟨returned.modify _ fun _ => rfl, returned.settled⟩
    obtain ⟨zs, c, rest, armings', done⟩ := ih settled
    refine ⟨.told d :: (ys ++ zs), c, .tell inside rest, ?_, ?_⟩
    · rw [filterMap_cons_none rfl, filterMap_append, armings, armings']
    · rw [append_assoc, append_assoc] at done
      exact done

/-- **A signal tells just the directions that it answers with.** -/
theorem Handling.signalled (each : Transcribes watched Inner)
    (handling : Handling Inner m u pending calls) (h : AtRest watched m xs a) :
    ∃ ys b, Signalled a pending (m.signal u pending).1 ys b ∧
      ys.filterMap Mark.arming? = calls ∧
      AtRest watched (m.signal u pending).2.machine (xs ++ ys) b := by
  cases handling with
  | idle none =>
    rw [signal, if_pos none]
    exact ⟨[], a, .idle none, rfl, by rwa [append_nil]⟩
  | told some telling =>
    have fired : m.fired pending = a.fires pending := by
      rw [Machine.fired, h.arbiter]
      rfl
    have changing : ¬Mark.Settled (xs ++ [.raised pending]) :=
      fun settled => Bool.false_ne_true (settled_concat.mp settled)
    have cleared := h.toAttends.acknowledge pending
    have ready : AtRest watched (m.firing pending) _ (a.fireAll (m.fired pending)) :=
      (cleared.modify _ fun settled => absurd settled changing).writeEnabled.atRest rfl
    obtain ⟨ys, b, tells, armings, done⟩ := telling.transcript each ready
    rw [append_assoc, append_assoc] at done
    rw [signal_eq m u some]
    rw [fired] at tells done ⊢
    refine ⟨_, b, .handled some tells, ?_, done⟩
    rw [filterMap_cons_none rfl, filterMap_cons_none rfl, armings]

/-- So does every series of calls whose notifications do. -/
theorem Calls.transcript (each : Transcribes watched Inner) (run : Calls Inner m calls m')
    (h : AtRest watched m xs a) :
    ∃ ys b, Transcript [] a ys b ∧ ys.filterMap Mark.arming? = calls ∧
      AtRest watched m' (xs ++ ys) b := by
  induction run with
  | nothing => exact ⟨[], a, .nil a, rfl, by rwa [append_nil]⟩
  | @setArmed calls k _ d on ih =>
    obtain ⟨ys, b, first, armings, rest⟩ := ih
    have found : k.arming d on = ⟨d, b.isArmed d, on⟩ := by
      rw [arming, rest.arbiter]
      rfl
    refine ⟨_, _, first.append (.arm d on (.nil _)), ?_, ?_⟩
    · rw [filterMap_append, armings, found]
      rfl
    · rw [← append_assoc]
      exact rest.setArmed d on
  | signal _ handling ih =>
    obtain ⟨ys, b, first, armings, rest⟩ := ih
    obtain ⟨zs, c, signalled, armings', done⟩ := handling.signalled each rest
    refine ⟨ys ++ zs, c, first.append (.of_signalled signalled), ?_, ?_⟩
    · rw [filterMap_append, armings, armings']
    · rwa [← append_assoc]
  | aside _ step ih =>
    obtain ⟨ys, b, first, armings, rest⟩ := ih
    exact ⟨ys, b, first, armings, rest.aside step⟩

/-- **Calls leave transcripts**, however deep they nest. -/
theorem transcribes_nested (watched : Prop) (n : Nat) : Transcribes watched (Nested n) := by
  induction n with
  | zero =>
    rintro _ m _ xs a ⟨rfl, rfl⟩ h
    exact ⟨[], a, .nil a, rfl, by rwa [append_nil]⟩
  | succ n ih => exact fun calls m m' xs a run h => Calls.transcript ih run h

/-! ## The account -/

/-- A machine in which nothing has happened and where there is no arbiter yet.  It keeps a complete
journal and remembers its moments. -/
structure Blank (m : Machine) : Prop where
  /-- There is no arbiter. -/
  unmade : m.arbiter = none
  /-- Every event is kept. -/
  complete : m.journal.detail = .complete
  /-- Nothing has happened yet. -/
  fresh : m.journal.events = #[]
  /-- Nothing is planned. -/
  idle : m.agenda = []
  /-- Every moment is remembered. -/
  moments : m.moments = some []

/-- A new arbiter has nothing armed, and says so in its register. -/
theorem Blank.atRest (blank : m.Blank) : AtRest True m.createArbiter [.enabled 0] {} := by
  -- the only moment so far, before there was an arbiter
  let k := m.poke .irqEnable 0
  have made : m.createArbiter = { k with arbiter := some {} } := by
    rw [createArbiter, write, turn_of_no_agenda blank.idle]
    rfl
  have scene : k.toScene = { m.toScene with
      adapter := m.adapter.write .irqEnable 0
      journal := m.journal.add (.wrote .irqEnable 0) } := toScene_poke m .irqEnable 0
  have journal : k.journal = m.journal.add (.wrote .irqEnable 0) := congrArg Scene.journal scene
  have marks : k.journal.marks = [.enabled 0] := by
    rw [journal]
    refine (Journal.pick_add blank.complete Event.mark? _).trans ?_
    rw [Journal.pick, blank.fresh]
    rfl
  have past : k.moments = some [k.toScene] := by
    refine (moments_record _ _).trans ?_
    exact congrArg (Option.map _) blank.moments
  rw [made]
  refine ⟨⟨rfl, ?_, marks, fun _ ms h => ?_, fun _ => ⟨_, past, fun s hs => ?_⟩⟩,
    fun _ => ⟨_, rfl, rfl⟩⟩
  · show k.journal.detail = .complete
    rw [journal, Journal.detail_add, blank.complete]
  · have idle : k.agenda = [] := (agenda_record _ _).trans blank.idle
    have h : ms ∈ k.agenda := h
    rw [idle] at h
    exact absurd h not_mem_nil
  · intro _ a here
    rcases mem_pair.mp hs with rfl | rfl
    · obtain rfl := Option.some.inj here
      show k.adapter.read .irqEnable = 0
      rw [scene]
      exact Adapter.read_write_self _ _ _
    · rw [scene] at here
      exact absurd (blank.unmade.symm.trans here) (Option.some_ne_none a).symm

/-- What can be said of an arbiter after certain calls. -/
structure Accounts (m : Machine) (calls : List Arming) (xs : List Mark) (a : Arbiter) : Prop where
  /-- The arbiter. -/
  arbiter : m.arbiter = some a
  /-- All marks but the first, which was left when the arbiter was made. -/
  marks : m.journal.marks = .enabled 0 :: xs
  /-- The marks are a transcript. -/
  transcript : Transcript [] {} xs a
  /-- Just these calls have armed and disarmed. -/
  armings : xs.filterMap Mark.arming? = calls
  /-- Whoever armed a disarmed direction was told, or disarmed it, or it is still armed. -/
  balance : ∀ d, xs.count (.told d) + calls.count ⟨d, true, false⟩ + (a.isArmed d).toNat =
    calls.count ⟨d, false, true⟩
  /-- Whoever was told was told by a signal that had the direction pending and found it armed. -/
  fired : ∀ before d after, xs = before ++ .told d :: after → ({} : Arbiter).Fired d before
  /-- The adapter may interrupt for just the armed directions. -/
  register : m.adapter.read .irqEnable = a.enabledMask
  /-- So it could at every moment, but for those between a change of the arms and its end. -/
  enabled : m.Throughout Scene.Enabled

/-- What a call does that arms or disarms a direction. -/
structure Arms (m : Machine) (a : Arbiter) (d : Direction) (on : Bool) (m' : Machine) : Prop where
  /-- The arbiter has the direction armed, or disarmed. -/
  arbiter : m'.arbiter = some (a.setArmed d on)
  /-- The other direction stays as it was. -/
  armed : ∀ e, (a.setArmed d on).isArmed e = if e = d then on else a.isArmed e
  /-- The call has left its mark and nothing else, but for what it writes. -/
  marks : m'.journal.marks =
    m.journal.marks ++ [.armed d (a.isArmed d) on, .enabled (a.setArmed d on).enabledMask]
  /-- The adapter may interrupt for just the armed directions. -/
  register : m'.adapter.read .irqEnable = (a.setArmed d on).enabledMask

/-- When the arms have been changed the register agrees with them. -/
theorem register_switched (m : Machine) (d : Direction) (on : Bool) :
    (m.switched d on).adapter.read .irqEnable =
      ((m.arbiter.map fun a => a.setArmed d on).map Arbiter.enabledMask).getD 0 := by
  let k := (m.modifyArbiter fun a => a.setArmed d on).record
    (.armed d (m.arbiter.any fun a => a.isArmed d) on)
  have changed : k.arbiter = m.arbiter.map fun a => a.setArmed d on := by
    rw [toScene_record]
    rfl
  obtain ⟨j, scene⟩ := k.writeEnabled.exists_toScene_give (.armed d on)
  show (k.writeEnabled.give (.armed d on)).adapter.read .irqEnable = _
  rw [scene, ← changed]
  show k.writeEnabled.adapter.read .irqEnable = _
  rw [writeEnabled, write, toScene_record]
  exact Adapter.read_write_self _ _ _

/-- **A call arms or disarms what it is called for**, whatever the arms are. -/
theorem arms_setArmed {a : Arbiter} (arbiter : m.arbiter = some a)
    (complete : m.journal.detail = .complete) (d : Direction) (on : Bool) :
    m.Arms a d on (m.setArmed d on) := by
  have rest : AtRest False m m.journal.marks a :=
    ⟨⟨arbiter, complete, rfl, False.elim, False.elim⟩, False.elim⟩
  have done := rest.setArmed d on
  refine ⟨done.arbiter, fun e => ?_, done.marks, ?_⟩
  · split
    · next same => rw [same, Arbiter.isArmed_setArmed_self]
    · next other => exact a.isArmed_setArmed_of_ne other on
  · have written : (m.setArmed d on).adapter = (m.switched d on).adapter := by
      cases on with
      | true => rfl
      | false =>
        rw [setArmed_false, awaitQuiet_eq]
        split <;> rfl
    rw [written]
    exact (m.register_switched d on).trans (by rw [arbiter]; rfl)

/-- **One-shot notifications are accounted for.**  An arbiter is made, and then called in any way,
also from inside its notifications.  Between the calls there is a notification for each call that armed
a disarmed direction, but for those taken back and those outstanding.  Each call that arms or disarms
does just that.  And a signal, whenever it is handled, answers with just the directions that it
notifies. -/
theorem notifications_are_accounted_for {n : Nat} {calls : List Arming} (blank : m.Blank)
    (run : Nested n calls m.createArbiter m') :
    (∃ xs a, m'.Accounts calls xs a) ∧
      ∀ (k : Machine) (a : Arbiter), k.arbiter = some a → k.journal.detail = .complete →
        (∀ d on, k.Arms a d on (k.setArmed d on)) ∧
        ∀ u pending inner, Handling (Nested n) k u pending inner →
          ∃ ys b, Signalled a pending (k.signal u pending).1 ys b ∧
            ys.filterMap Mark.arming? = inner ∧ (k.signal u pending).2.machine.arbiter = some b ∧
            (k.signal u pending).2.machine.journal.marks = k.journal.marks ++ ys := by
  refine ⟨?_, fun k a arbiter complete => ⟨arms_setArmed arbiter complete, ?_⟩⟩
  · obtain ⟨xs, a, transcript, armings, rest⟩ :=
      transcribes_nested True n _ _ _ _ _ run blank.atRest
    refine ⟨xs, a, rest.arbiter, rest.marks, transcript, armings, fun d => ?_,
      fun before d after here => ?_, rest.enabled trivial (rest.settled trivial), rest.seen trivial⟩
    · have balance := transcript.balance d
      have disarmed : ({} : Arbiter).isArmed d = false := by cases d <;> rfl
      rw [disarmed] at balance
      rw [← armings, Mark.count_arming?, Mark.count_arming?]
      simpa using balance
    · exact (transcript.fired_of_told (fun _ => rfl) here).resolve_left not_mem_nil
  · intro u pending inner handling
    have rest : AtRest False k k.journal.marks a :=
      ⟨⟨arbiter, complete, rfl, False.elim, False.elim⟩, False.elim⟩
    obtain ⟨ys, b, signalled, armings, done⟩ :=
      handling.signalled (transcribes_nested False n) rest
    exact ⟨ys, b, signalled, armings, done.arbiter, done.marks⟩

/-- A machine in which nothing has happened. -/
def unused : Machine where
  journal := { detail := .complete }
  moments := some []

theorem blank_unused : unused.Blank := ⟨rfl, rfl, rfl, rfl, rfl⟩

/-- Both directions are armed, and a signal fires both.  Inside its first notification the direction
is armed again, and fired by a signal that is handled there, and armed for the third time.  Inside
the last one it is disarmed. -/
theorem notifications_are_accounted_for_nested :
    ∃ calls m', Nested 3 calls unused.createArbiter m' ∧
      calls = [⟨.tx, false, true⟩, ⟨.rx, false, true⟩, ⟨.tx, false, true⟩, ⟨.tx, false, true⟩,
        ⟨.tx, true, false⟩] ∧
      m'.journal.marks = [.enabled 0, .armed .tx false true, .enabled IrqMask.txDone,
        .armed .rx false true, .enabled (IrqMask.txDone ||| IrqMask.rxDone), .raised 255,
        .enabled 0, .told .tx, .armed .tx false true, .enabled IrqMask.txDone,
        .raised IrqMask.txDone, .enabled 0, .told .tx, .armed .tx false true,
        .enabled IrqMask.txDone, .told .rx, .armed .tx true false, .enabled 0] ∧
      (∃ xs a, m'.Accounts calls xs a) ∧
        ∀ (k : Machine) (a : Arbiter), k.arbiter = some a → k.journal.detail = .complete →
          (∀ d on, k.Arms a d on (k.setArmed d on)) ∧
          ∀ u pending inner, Handling (Nested 3) k u pending inner →
            ∃ ys b, Signalled a pending (k.signal u pending).1 ys b ∧
              ys.filterMap Mark.arming? = inner ∧ (k.signal u pending).2.machine.arbiter = some b ∧
              (k.signal u pending).2.machine.journal.marks = k.journal.marks ++ ys := by
  let arm (m : Machine) : Machine := m.setArmed .tx true
  let again (m : Machine) : Machine := ((arm m).signal { replies := [arm] } IrqMask.txDone).2.machine
  let quit (m : Machine) : Machine := m.setArmed .tx false
  have arms : ({ replies := [arm] } : Upper).Abides (Callable 1) := by
    intro reply h m
    rw [mem_singleton.mp h]
    exact .single ⟨_, Calls.nothing.setArmed .tx true⟩
  have abides : ({ replies := [again, quit] } : Upper).Abides (Callable 2) := by
    intro reply h m
    rcases mem_pair.mp h with rfl | rfl
    · obtain ⟨inner, handling⟩ := exists_handling (arm m) arms IrqMask.txDone
      exact .single ⟨_, (Calls.nothing.setArmed .tx true).signal handling⟩
    · exact .single ⟨_, Calls.nothing.setArmed .tx false⟩
  let both : Machine := (arm unused.createArbiter).setArmed .rx true
  obtain ⟨inner, handling⟩ := exists_handling both abides 255
  have run : Nested 3 _ unused.createArbiter _ :=
    ((Calls.nothing.setArmed .tx true).setArmed .rx true).signal handling
  have claim := notifications_are_accounted_for blank_unused run
  obtain ⟨xs, a, accounts⟩ := claim.1
  have armings : (Mark.enabled 0 :: xs).tail.filterMap Mark.arming? = _ := accounts.armings
  rw [← accounts.marks] at armings
  exact ⟨_, _, run, armings.symm.trans (by decide +kernel), by decide +kernel, claim⟩

end Machine

end DescriptorRings
