import DescriptorRings.Proofs.Engine.Switch

/-!
# The arbiter of an engine

Disarming a direction waits until none of its notifications is in flight, and a wait that does not
end at once does not end at all.  So whoever disarms has to know that nobody is being told.

Between two requests nobody is.  A signal puts notifications in flight and returns when all of them
have returned, whatever is called from inside them, and nothing else puts any in flight
(`EngineRequest.sameFlight`).  The induction is on how deep the calls nest.

When both directions have been disarmed then, the arbiter is mute (`Machine.Muted`), and no part but
the arbiter itself can change that.
-/

namespace DescriptorRings

open Relation List

/-! ## Nobody is being told -/

namespace Arbiter

/-- Each direction that is fired is put in flight once more. -/
theorem get_inFlight_fireAll (a : Arbiter) (ds : List Direction) (d : Direction) :
    (a.fireAll ds).inFlight.get d = a.inFlight.get d + ds.count d := by
  induction ds generalizing a with
  | nil => rfl
  | cons e ds ih =>
    have rest := ih (a.fire e)
    rw [fireAll, foldl_cons]
    refine rest.trans ?_
    by_cases same : d = e
    · subst same
      rw [fire, PerDirection.get_modify_self, count_cons_self]
      omega
    · rw [fire, PerDirection.get_modify_of_ne _ same, count_cons_of_ne fun h => same h.symm]

end Arbiter

namespace Machine

theorem arbiter_write (m : Machine) (r : Register) (v : UInt32) :
    (m.write r v).arbiter = m.arbiter ∧ (m.write r v).stalled = m.stalled := by
  obtain ⟨a, mem, j, scene⟩ := m.exists_toScene_turn
  rw [write, toScene_record]
  show m.turn.arbiter = m.arbiter ∧ m.turn.stalled = m.stalled
  rw [scene]
  exact ⟨rfl, rfl⟩

theorem arbiter_give (m : Machine) (n : Notice) :
    (m.give n).arbiter = m.arbiter ∧ (m.give n).stalled = m.stalled := by
  obtain ⟨j, scene⟩ := exists_toScene_give m n
  rw [scene]
  exact ⟨rfl, rfl⟩

/-- How many notifications of a direction are in flight. -/
def notifying (m : Machine) (d : Direction) : Nat := (m.arbiter.map fun a => a.inFlight.get d).getD 0

theorem notifying_of_arbiter_eq {m m' : Machine} (h : m'.arbiter = m.arbiter) (d : Direction) :
    m'.notifying d = m.notifying d := by
  rw [notifying, h, notifying]

/-- When a notification has returned there is one less in flight. -/
theorem notifying_settle (m : Machine) (d e : Direction) :
    (m.modifyArbiter fun a => a.settle d).notifying e = m.notifying e - [d].count e := by
  rw [notifying, modifyArbiter, notifying]
  cases m.arbiter with
  | none => simp
  | some a =>
    by_cases same : e = d
    · subst same
      simp [Arbiter.settle]
    · simp [Arbiter.settle, PerDirection.get_modify_of_ne _ same, Ne.symm same]

/-- A direction is armed or disarmed, and the register says so, but nobody has been waited for. -/
def switched (m : Machine) (d : Direction) (on : Bool) : Machine :=
  ((m.modifyArbiter fun a => a.setArmed d on).record
    (.armed d (m.arbiter.any fun a => a.isArmed d) on)).writeEnabled.give (.armed d on)

theorem setArmed_false (m : Machine) (d : Direction) :
    m.setArmed d false = (m.switched d false).awaitQuiet d := rfl

theorem arbiter_switched (m : Machine) (d : Direction) (on : Bool) :
    (m.switched d on).arbiter = m.arbiter.map (fun a => a.setArmed d on) ∧
      (m.switched d on).stalled = m.stalled := by
  let k := (m.modifyArbiter fun a => a.setArmed d on).record
    (.armed d (m.arbiter.any fun a => a.isArmed d) on)
  have given := k.writeEnabled.arbiter_give (.armed d on)
  have written := k.arbiter_write .irqEnable ((k.arbiter.map Arbiter.enabledMask).getD 0)
  have changed : k.arbiter = m.arbiter.map (fun a => a.setArmed d on) ∧ k.stalled = m.stalled := by
    rw [toScene_record]
    exact ⟨rfl, rfl⟩
  exact ⟨(given.1.trans written.1).trans changed.1, (given.2.trans written.2).trans changed.2⟩

/-- A wait ends unless a notification of the direction is in flight. -/
theorem awaitQuiet_eq (m : Machine) (d : Direction) :
    m.awaitQuiet d = if m.notifying d = 0 then m else { m with stalled := some d } := by
  have waits : (m.arbiter.any fun a => a.isNotifying d) = !decide (m.notifying d = 0) := by
    rw [notifying]
    cases m.arbiter with
    | none => rfl
    | some a => rw [Option.any_some, Arbiter.isNotifying, bne]; rfl
  rw [awaitQuiet, waits]
  by_cases quiet : m.notifying d = 0 <;> simp [quiet]

/-- The directions that a signal fires. -/
def fired (m : Machine) (pending : UInt32) : List Direction :=
  (m.arbiter.map fun a => a.fires pending).getD []

/-- A signal is acknowledged, and the notifications of all that it fires are in flight. -/
def firing (m : Machine) (pending : UInt32) : Machine :=
  ((m.write .irqClear pending).modifyArbiter fun a => a.fireAll (m.fired pending)).writeEnabled

/-- **A signal** fires directions, and then tells one after the other. -/
theorem signal_eq (m : Machine) (u : Upper) {pending : UInt32} (h : pending ≠ 0) :
    m.signal u pending = (m.fired pending,
      (m.fired pending).foldl deliverNotification (.start u (m.firing pending))) := by
  have same : ((m.write .irqClear pending).arbiter.map fun a => a.fires pending).getD [] =
      m.fired pending := by
    rw [(m.arbiter_write .irqClear pending).1]
    rfl
  rw [signal, if_neg h]
  dsimp only
  rw [same]
  rfl

theorem stalled_firing (m : Machine) (pending : UInt32) : (m.firing pending).stalled = m.stalled :=
  (arbiter_write _ _ _).2.trans (arbiter_write _ _ _).2

theorem notifying_firing (m : Machine) (pending : UInt32) (d : Direction) :
    (m.firing pending).notifying d = m.notifying d + (m.fired pending).count d := by
  rw [firing, writeEnabled, notifying_of_arbiter_eq (arbiter_write _ _ _).1, notifying,
    modifyArbiter, (m.arbiter_write .irqClear pending).1, notifying, fired]
  cases m.arbiter with
  | none => rfl
  | some a => exact a.get_inFlight_fireAll (a.fires pending) d

/-- As many notifications are in flight as before. -/
def SameFlight (m m' : Machine) : Prop := ∀ d, m'.notifying d = m.notifying d

namespace SameFlight

variable {m m' m'' : Machine} {Act : Machine → Machine → Prop}

theorem refl (m : Machine) : SameFlight m m := fun _ => rfl

theorem trans (h : SameFlight m m') (h' : SameFlight m' m'') : SameFlight m m'' :=
  fun d => (h' d).trans (h d)

theorem of_arbiter_eq (h : m'.arbiter = m.arbiter) : SameFlight m m' := notifying_of_arbiter_eq h

theorem of_run (acts : ∀ k k', Act k k' → SameFlight k k') (run : ReflTransGen Act m m') :
    SameFlight m m' := by
  induction run with
  | refl => exact refl m
  | tail _ act ih => exact ih.trans (acts _ _ act)

/-- Other parts put no notification in flight. -/
theorem working {p : Part} {shifts : Prop} (other : p ≠ .irq)
    (acts : ∀ k k', Act k k' → SameFlight k k') (run : Working p shifts Act m m') :
    SameFlight m m' :=
  run.keeps (P := SameFlight m) (fun _ _ stroke h => h.trans (of_arbiter_eq (stroke.arbiter_eq other).1))
    (fun _ _ act h => h.trans (acts _ _ act)) (refl m)

theorem record (m : Machine) (e : Event) : SameFlight m (m.record e) :=
  of_arbiter_eq (by rw [toScene_record])

theorem give (m : Machine) (n : Notice) : SameFlight m (m.give n) :=
  of_arbiter_eq (m.arbiter_give n).1

theorem switched (m : Machine) (d : Direction) (on : Bool) : SameFlight m (m.switched d on) := by
  intro e
  rw [notifying, (m.arbiter_switched d on).1, notifying]
  cases m.arbiter <;> rfl

theorem setArmed (m : Machine) (d : Direction) (on : Bool) : SameFlight m (m.setArmed d on) := by
  cases on with
  | true => exact switched m d true
  | false =>
    rw [setArmed_false, awaitQuiet_eq]
    split
    · exact switched m d false
    · exact (switched m d false).trans (of_arbiter_eq rfl)

/-- Those who are due are told, and each of them returns. -/
theorem notifying_foldl_deliverNotification (acts : ∀ k k', Act k k' → SameFlight k k') {s : Served}
    (abides : s.upper.Abides Act) (due : List Direction) (d : Direction) :
    (due.foldl deliverNotification s).machine.notifying d = s.machine.notifying d - due.count d := by
  induction due generalizing s with
  | nil => rfl
  | cons e due ih =>
    let told : Served := s.onMachine fun m => m.record (.notified e)
    have called : SameFlight s.machine told.reply.machine :=
      (record _ _).trans (of_run acts (Served.run_reply (s := told) abides))
    have settled : (told.reply.machine.modifyArbiter fun a => a.settle e).notifying d =
        s.machine.notifying d - [e].count d := by
      rw [notifying_settle, called d]
    have rest := ih (s := told.reply.onMachine fun m => m.modifyArbiter fun a => a.settle e)
      (Served.abides_reply (s := told) abides)
    refine rest.trans ?_
    show (told.reply.machine.modifyArbiter fun a => a.settle e).notifying d - _ = _
    have both : (e :: due).count d = [e].count d + due.count d := by
      rw [← count_append]
      rfl
    omega

/-- **A signal returns when all that it notifies have returned.** -/
theorem signal (m : Machine) {u : Upper} (abides : u.Abides Act)
    (acts : ∀ k k', Act k k' → SameFlight k k') (pending : UInt32) :
    SameFlight m (m.signal u pending).2.machine := by
  by_cases none : pending = 0
  · rw [Machine.signal, if_pos none]
    exact refl m
  · intro d
    rw [signal_eq m u none, notifying_foldl_deliverNotification acts (s := .start u _) abides]
    show (m.firing pending).notifying d - _ = _
    rw [notifying_firing]
    omega

end SameFlight

end Machine

variable {R : Rules} {n : Nat} {l : Locks} {m m' : Machine} {stalled : Option Direction}
  {v : UInt32}

/-- **No call leaves a notification in flight** that it has put there. -/
theorem Call.sameFlight {Inner : Locks → Machine → Machine → Prop}
    (inner : ∀ l' k k', Inner l' k k' → k.SameFlight k') (h : Call R Inner l m m') :
    m.SameFlight m' := by
  have idle (k k' : Machine) (h : False) : k.SameFlight k' := h.elim
  cases h with
  | submit p =>
    unfold Machine.submit
    split
    · exact .refl m
    · exact .of_arbiter_eq (by rw [Machine.toScene_record]; rfl)
  | holding h =>
    rcases h.cases with run | ⟨o, rfl⟩ | ⟨mv, -, rfl⟩
    · exact .working (by decide) idle run
    · exact .record m _
    · exact .of_arbiter_eq (by rw [Machine.toScene_move])
  | plan => exact .of_arbiter_eq rfl
  | look r =>
    have looked : Working .tx False (fun _ _ => False) m (m.read r).2 := .read m r
    exact .working (by decide) idle looked
  | give note => exact .give m note
  | arm d on => exact .setArmed m d on
  | signal pending abides => exact .signal m abides (inner l) pending
  | startTx => exact .working (by decide) idle (Machine.working_startTx m)
  | cancelTx => exact .working (by decide) idle (Machine.working_cancelTx m)
  | advanceTx _ abides =>
    exact .working (by decide) (inner _) (Machine.works_advanceTx m abides).run
  | startRx => exact .working (by decide) idle (Machine.working_startRx m)
  | cancelRx => exact .working (by decide) idle (Machine.working_cancelRx m)
  | advanceRx _ abides =>
    exact .working (by decide) (inner _) (Machine.works_advanceRx m abides).run

theorem Calls.sameFlight (h : Calls R n l m m') : m.SameFlight m' := by
  induction n generalizing l m m' with
  | zero => exact absurd h id
  | succ n ih => exact Call.sameFlight (fun l' k k' => ih) h

/-- **So between two requests to an engine nobody is being told.** -/
theorem EngineRequest.sameFlight (run : ReflTransGen (EngineRequest R n) m m') : m.SameFlight m' := by
  induction run with
  | refl => exact .refl m
  | tail _ request ih => exact ih.trans (.of_run (fun _ _ => Calls.sameFlight) request.calls)

/-! ## Silence at the arbiter -/

namespace Machine

/-- Nothing is armed, the adapter may not interrupt and does not plan to change that, and a wait has
ended or not as it is said. -/
structure Muted (stalled : Option Direction) (m : Machine) : Prop where
  /-- No direction is armed. -/
  disarmed : ∀ d, (m.arbiter.any fun a => a.isArmed d) = false
  /-- The adapter may not interrupt. -/
  reads : m.Reads .irqEnable 0
  /-- The wait that does not end, if there is one. -/
  stalled : m.stalled = stalled

theorem Muted.record (h : Muted stalled m) (e : Event) : Muted stalled (m.record e) := by
  refine ⟨?_, h.reads.record e, ?_⟩
  · rw [toScene_record]
    exact h.disarmed
  · rw [toScene_record]
    exact h.stalled

/-- **Arming and disarming** writes the register anew, and waits for nobody if nobody is being told.
-/
theorem setArmed_eq (reads : m.Reads .irqEnable v) (d : Direction) (on : Bool)
    (quiet : m.notifying d = 0) :
    (m.setArmed d on).arbiter = m.arbiter.map (fun a => a.setArmed d on) ∧
      (m.setArmed d on).Reads .irqEnable
        ((m.arbiter.map fun a => (a.setArmed d on).enabledMask).getD 0) ∧
      (m.setArmed d on).stalled = m.stalled := by
  obtain ⟨arbiter, stalled⟩ := m.arbiter_switched d on
  have masked : (m.switched d on).Reads .irqEnable
      ((m.arbiter.map fun a => (a.setArmed d on).enabledMask).getD 0) := by
    let k := (m.modifyArbiter fun a => a.setArmed d on).record
      (.armed d (m.arbiter.any fun a => a.isArmed d) on)
    have mask : (k.arbiter.map Arbiter.enabledMask).getD 0 =
        (m.arbiter.map fun a => (a.setArmed d on).enabledMask).getD 0 := by
      rw [toScene_record]
      show ((m.arbiter.map _).map _).getD 0 = _
      rw [Option.map_map]
      rfl
    have armed : Reads .irqEnable v (m.modifyArbiter fun a => a.setArmed d on) :=
      ⟨reads.value, reads.planned⟩
    rw [← mask]
    exact ((armed.record _).write_self _).give _
  have done : m.setArmed d on = m.switched d on := by
    cases on with
    | true => rfl
    | false =>
      rw [setArmed_false, awaitQuiet_eq]
      exact if_pos ((SameFlight.switched m d false d).trans quiet)
  rw [done]
  exact ⟨arbiter, masked, stalled⟩

/-- **When both directions are disarmed the arbiter is mute.** -/
theorem muted_setArmed (reads : m.Reads .irqEnable v) (quiet : ∀ d, m.notifying d = 0) :
    ((m.setArmed .tx false).setArmed .rx false).Muted m.stalled := by
  obtain ⟨arbiter₁, reads₁, stalled₁⟩ := setArmed_eq reads .tx false (quiet .tx)
  have quiet₁ : (m.setArmed .tx false).notifying .rx = 0 :=
    (SameFlight.setArmed m .tx false .rx).trans (quiet .rx)
  obtain ⟨arbiter₂, reads₂, stalled₂⟩ := setArmed_eq reads₁ .rx false quiet₁
  rw [arbiter₁] at arbiter₂ reads₂
  have mask : (((m.arbiter.map fun a => a.setArmed .tx false).map fun a =>
      (a.setArmed .rx false).enabledMask).getD 0) = 0 := by
    cases m.arbiter <;> rfl
  rw [mask] at reads₂
  refine ⟨fun d => ?_, reads₂, stalled₂.trans stalled₁⟩
  rw [arbiter₂]
  cases m.arbiter with
  | none => rfl
  | some a => cases d <;> rfl

/-- Other parts leave it so. -/
theorem Muted.working {p : Part} {shifts : Prop} {Act : Machine → Machine → Prop}
    (h : Muted stalled m) (other : p ≠ .irq)
    (acts : ∀ k k', Act k k' → Muted stalled k → Muted stalled k')
    (run : Working p shifts Act m m') : Muted stalled m' := by
  have foreign : p.owns .irqEnable = false := by
    cases p with
    | irq => exact absurd rfl other
    | tx | rx => rfl
  have unswitched : p.switch? ≠ some .irqEnable := by cases p <;> decide
  refine run.keeps (P := Muted stalled) (fun k k' stroke before => ?_) acts h
  obtain ⟨arbiter, waits⟩ := stroke.arbiter_eq other
  refine ⟨?_, stroke.reads foreign (fun _ => unswitched) (by decide) before.reads,
    waits.trans before.stalled⟩
  rw [arbiter]
  exact before.disarmed

end Machine

end DescriptorRings
