import DescriptorRings.Signal.Arbiter
import Mathlib.Data.List.Count
import Mathlib.Data.List.Nodup

/-!
# Transcripts of an arbiter

What is done to an arbiter leaves *marks*: a direction is armed or disarmed, a signal arrives, the
directions that the adapter may interrupt for are written, the upper layer is told.  The marks of a
series of calls form a *transcript*.

Calls nest.  Between the marks of one signal stand those of all calls that were made from inside its
notifications, which may be signals again.  So transcripts are trees written down as lists, and
`Transcript` is the grammar of the trees: a signal fixes at once which directions it is going to
tell (`due`), and then tells them one after the other, with a transcript of its own below each of
them.

A direction that is due has been disarmed already.  This is why arming and telling balance
(`Transcript.balance`) whatever the callbacks do: an arming that found its direction disarmed is
paid back by a disarming, or by one notification, or is still outstanding, or is due.
-/

namespace DescriptorRings

open List

/-- What the use of an arbiter leaves behind. -/
inductive Mark where
  /-- A direction was armed or disarmed. -/
  | armed (d : Direction) (before after : Bool)
  /-- A signal was acknowledged. -/
  | raised (pending : UInt32)
  /-- The directions that the adapter may interrupt for were written. -/
  | enabled (mask : UInt32)
  /-- The upper layer was told of a direction. -/
  | told (d : Direction)
  deriving DecidableEq, Repr

namespace Arbiter

variable {a b : Arbiter} {d e : Direction} {pending : UInt32}

theorem isArmed_setArmed_of_ne (a : Arbiter) (ne : e ≠ d) (on : Bool) :
    (a.setArmed d on).isArmed e = a.isArmed e :=
  PerDirection.get_modify_of_ne a.armed ne _

@[simp] theorem isArmed_settle (a : Arbiter) (d e : Direction) :
    (a.settle d).isArmed e = a.isArmed e := rfl

/-- A direction that is fired is disarmed, and the others stay as they are. -/
theorem isArmed_fireAll (a : Arbiter) (ds : List Direction) (d : Direction) :
    (a.fireAll ds).isArmed d = (a.isArmed d && decide (d ∉ ds)) := by
  induction ds generalizing a with
  | nil => simp [fireAll]
  | cons e ds ih =>
    have rest := ih (a.fire e)
    rw [fireAll, foldl_cons]
    refine rest.trans ?_
    by_cases same : d = e
    · subst same
      simp
    · have other : (a.fire e).isArmed d = a.isArmed d :=
        PerDirection.get_modify_of_ne a.armed same _
      rw [other]
      simp [same]

theorem mem_fires : d ∈ a.fires pending ↔ hasBits pending d.mask = true ∧ a.isArmed d = true := by
  have all : d ∈ Direction.all := by cases d <;> decide
  rw [fires, mem_filter, Bool.and_eq_true]
  exact ⟨And.right, fun h => ⟨all, h⟩⟩

theorem nodup_fires (a : Arbiter) (pending : UInt32) : (a.fires pending).Nodup :=
  Nodup.filter _ (by decide)

/-- **A signal exchanges an armed direction for one that is due.** -/
theorem isArmed_fires (a : Arbiter) (pending : UInt32) (d : Direction) :
    ((a.fireAll (a.fires pending)).isArmed d).toNat + (a.fires pending).count d =
      (a.isArmed d).toNat := by
  rw [isArmed_fireAll]
  by_cases fired : d ∈ a.fires pending
  · have armed := (mem_fires.mp fired).2
    rw [count_eq_one_of_mem (a.nodup_fires pending) fired, armed]
    simp [fired]
  · rw [count_eq_zero_of_not_mem fired]
    simp [fired]

end Arbiter

/-- Calls to an arbiter, one after the other, with the marks they leave.  `due` are the directions
that the signal under way has still to tell; between calls there are none. -/
inductive Transcript : List Direction → Arbiter → List Mark → Arbiter → Prop
  /-- Nothing more is called, and nobody has to be told. -/
  | nil (a : Arbiter) : Transcript [] a [] a
  /-- A direction is armed or disarmed. -/
  | arm {a b : Arbiter} {xs : List Mark} (d : Direction) (on : Bool)
      (rest : Transcript [] (a.setArmed d on) xs b) :
      Transcript [] a (.armed d (a.isArmed d) on :: .enabled (a.setArmed d on).enabledMask :: xs) b
  /-- A signal fires what is armed and pending, and then tells it. -/
  | signal {a b c : Arbiter} {xs ys : List Mark} {pending : UInt32} (some : pending ≠ 0)
      (tells : Transcript (a.fires pending) (a.fireAll (a.fires pending)) xs b)
      (rest : Transcript [] b ys c) :
      Transcript [] a
        (.raised pending :: .enabled (a.fireAll (a.fires pending)).enabledMask :: (xs ++ ys)) c
  /-- The first direction that is due is told, and the callback makes calls of its own. -/
  | tell {d : Direction} {due : List Direction} {a b c : Arbiter} {xs ys : List Mark}
      (calls : Transcript [] a xs b) (rest : Transcript due (b.settle d) ys c) :
      Transcript (d :: due) a (.told d :: (xs ++ ys)) c

/-- One signal: the directions that it tells, and the marks that it leaves. -/
inductive Signalled (a : Arbiter) (pending : UInt32) : List Direction → List Mark → Arbiter → Prop
  /-- A signal without a cause is none. -/
  | idle (none : pending = 0) : Signalled a pending [] [] a
  /-- A signal tells just the directions that it fires, one after the other. -/
  | handled {b : Arbiter} {xs : List Mark} (some : pending ≠ 0)
      (tells : Transcript (a.fires pending) (a.fireAll (a.fires pending)) xs b) :
      Signalled a pending (a.fires pending)
        (.raised pending :: .enabled (a.fireAll (a.fires pending)).enabledMask :: xs) b

namespace Transcript

variable {due : List Direction} {a b c : Arbiter} {xs ys : List Mark}

theorem of_signalled {pending : UInt32} (h : Signalled a pending due xs b) :
    Transcript [] a xs b := by
  cases h with
  | idle => exact .nil a
  | @handled b xs some tells =>
    have all := Transcript.signal some tells (.nil b)
    rwa [append_nil] at all

/-- One series of calls after another. -/
theorem append (h : Transcript due a xs b) (h' : Transcript [] b ys c) :
    Transcript due a (xs ++ ys) c := by
  induction h with
  | nil => exact h'
  | arm d on _ ih => exact .arm d on (ih h')
  | @signal a b c xs zs pending some tells _ _ ih =>
    have all := Transcript.signal some tells (ih h')
    rwa [← append_assoc] at all
  | @tell d due a b c xs zs calls _ _ ih =>
    have all := Transcript.tell calls (ih h')
    rwa [← append_assoc] at all

/-- **Arming and telling balance.** -/
theorem balance (h : Transcript due a xs b) (d : Direction) :
    xs.count (.told d) + xs.count (.armed d true false) + (b.isArmed d).toNat =
      xs.count (.armed d false true) + (a.isArmed d).toNat + due.count d := by
  induction h with
  | nil => simp
  | @arm a b xs e on _ ih =>
    by_cases same : e = d
    · subst same
      rw [Arbiter.isArmed_setArmed_self] at ih
      cases on <;> cases a.isArmed e <;> simp at ih ⊢ <;> omega
    · rw [a.isArmed_setArmed_of_ne (Ne.symm same)] at ih
      simpa [same] using ih
  | @signal a b c xs ys pending _ _ _ told after =>
    have fired := a.isArmed_fires pending d
    simp only [count_nil] at after ⊢
    simp only [count_cons, count_append, reduceCtorEq, beq_iff_eq, if_false]
    omega
  | @tell e due a b c xs ys _ _ called after =>
    rw [Arbiter.isArmed_settle] at after
    simp only [count_nil] at called
    simp only [count_cons, count_append, beq_iff_eq, Mark.told.injEq, reduceCtorEq, if_false]
    omega

end Transcript

/-! ## Reading the marks alone -/

namespace Arbiter

variable {a b : Arbiter} {d : Direction} {xs ys : List Mark}

/-- What a mark says about the directions that are armed. -/
def mark (a : Arbiter) : Mark → Arbiter
  | .armed d _ on => a.setArmed d on
  | .raised pending => a.fireAll (a.fires pending)
  | .enabled _ | .told _ => a

/-- An arbiter with the directions armed that the marks say. -/
def markAll (a : Arbiter) (xs : List Mark) : Arbiter := xs.foldl mark a

/-- The same directions are armed, whoever is being told. -/
def Alike (a b : Arbiter) : Prop := ∀ d, a.isArmed d = b.isArmed d

theorem Alike.setArmed (h : a.Alike b) (d : Direction) (on : Bool) :
    (a.setArmed d on).Alike (b.setArmed d on) := by
  intro e
  by_cases same : e = d
  · subst same
    rw [isArmed_setArmed_self, isArmed_setArmed_self]
  · rw [a.isArmed_setArmed_of_ne same, b.isArmed_setArmed_of_ne same, h e]

theorem Alike.fires_eq (h : a.Alike b) (pending : UInt32) : a.fires pending = b.fires pending := by
  unfold fires
  simp only [h _]

theorem Alike.fireAll (h : a.Alike b) (pending : UInt32) :
    (a.fireAll (a.fires pending)).Alike (b.fireAll (b.fires pending)) := by
  intro e
  rw [isArmed_fireAll, isArmed_fireAll, h.fires_eq, h e]

/-- Among the marks is a signal that had a direction pending and found it armed. -/
def Fired (a : Arbiter) (d : Direction) (xs : List Mark) : Prop :=
  ∃ earlier pending later, xs = earlier ++ .raised pending :: later ∧
    hasBits pending d.mask = true ∧ (a.markAll earlier).isArmed d = true

theorem Fired.append_left (h : (a.markAll xs).Fired d ys) : a.Fired d (xs ++ ys) := by
  obtain ⟨earlier, pending, later, rfl, bit, armed⟩ := h
  refine ⟨xs ++ earlier, pending, later, (append_assoc _ _ _).symm, bit, ?_⟩
  rwa [markAll, foldl_append]

end Arbiter

/-- A member of two lists one after the other stands in one of them. -/
theorem split_of_append_eq {α : Type} {xs ys before after : List α} {x : α}
    (h : xs ++ ys = before ++ x :: after) :
    (∃ later, xs = before ++ x :: later) ∨
      ∃ between, before = xs ++ between ∧ ys = between ++ x :: after := by
  rcases append_eq_append_iff.mp h with ⟨between, rfl, rfl⟩ | ⟨rest, rfl, same⟩
  · exact .inr ⟨between, rfl, rfl⟩
  · cases rest with
    | nil => exact .inr ⟨[], by simp, same.symm⟩
    | cons y rest =>
      obtain ⟨rfl, -⟩ := cons.inj same
      exact .inl ⟨rest, rfl⟩

namespace Transcript

variable {due : List Direction} {a a' b : Arbiter} {xs : List Mark}

/-- The marks say which directions are armed in the end. -/
theorem markAll_alike (h : Transcript due a xs b) (alike : a'.Alike a) :
    (a'.markAll xs).Alike b := by
  induction h generalizing a' with
  | nil => exact alike
  | arm d on _ ih => exact ih (alike.setArmed d on)
  | @signal a b c xs ys pending _ _ _ tells rest =>
    rw [Arbiter.markAll, foldl_cons, foldl_cons, foldl_append]
    exact rest (tells (alike.fireAll pending))
  | tell _ _ calls rest =>
    rw [Arbiter.markAll, foldl_cons, foldl_append]
    exact rest (calls alike)

/-- **Whoever is told was fired**: a signal, still in progress, had the direction pending and found
it armed. -/
theorem fired_of_told (h : Transcript due a xs b) (alike : a'.Alike a) {before after : List Mark}
    {d : Direction} (here : xs = before ++ .told d :: after) : d ∈ due ∨ a'.Fired d before := by
  induction h generalizing a' before after with
  | nil => exact absurd here (by simp)
  | @arm a b xs e on _ ih =>
    rcases split_of_append_eq (show [_, _] ++ xs = _ from here) with ⟨_, first⟩ | ⟨_, rfl, there⟩
    · exact absurd (congrArg (Mark.told d ∈ ·) first) (by simp)
    · have inside := (ih (alike.setArmed e on) there).resolve_left not_mem_nil
      exact .inr (Arbiter.Fired.append_left (a := a') inside)
  | @signal a b c xs ys pending _ first _ tells rest =>
    have fired := alike.fireAll pending
    refine .inr ?_
    rcases split_of_append_eq (show [_, _] ++ (xs ++ ys) = _ from here) with
      ⟨_, head⟩ | ⟨_, rfl, there⟩
    · exact absurd (congrArg (Mark.told d ∈ ·) head) (by simp)
    rcases split_of_append_eq there with ⟨_, below⟩ | ⟨_, rfl, below⟩
    · rcases tells fired below with due | inside
      · obtain ⟨bit, armed⟩ := Arbiter.mem_fires.mp due
        exact ⟨[], pending, _, rfl, bit, (alike d).trans armed⟩
      · exact Arbiter.Fired.append_left (a := a') inside
    · have inside := (rest (first.markAll_alike fired) below).resolve_left not_mem_nil
      exact Arbiter.Fired.append_left (a := a') inside.append_left
  | @tell e due a b c xs ys first _ calls rest =>
    rcases split_of_append_eq (show [_] ++ (xs ++ ys) = _ from here) with
      ⟨_, head⟩ | ⟨_, rfl, there⟩
    · have own : Mark.told d ∈ [Mark.told e] := by
        rw [head]
        exact mem_append_right before mem_cons_self
      obtain rfl := Mark.told.inj (mem_singleton.mp own)
      exact .inl mem_cons_self
    rcases split_of_append_eq there with ⟨_, below⟩ | ⟨_, rfl, below⟩
    · have inside := (calls alike below).resolve_left not_mem_nil
      exact .inr (Arbiter.Fired.append_left (a := a') inside)
    · rcases rest (first.markAll_alike alike) below with due | inside
      · exact .inl (mem_cons_of_mem e due)
      · exact .inr (Arbiter.Fired.append_left (a := a') inside.append_left)

end Transcript

end DescriptorRings
