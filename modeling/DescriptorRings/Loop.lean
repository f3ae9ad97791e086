/-!
# Loops that stop of their own accord

The rings are served by loops of one form: a round changes the state and then either asks for
another round or does not.  Each loop has a bound that is known before it starts (the packets that
were passed, the completions that were announced, the slots that are free), so a loop is a round
and a number of rounds, and never needs more than that.

The state is handed through: a round that stops still leaves its changes behind.
-/

namespace DescriptorRings

/-- Runs rounds until one does not ask for another, but no more than `n`. -/
def loop {α : Type} (round : α → Bool × α) : Nat → α → α
  | 0, a => a
  | n + 1, a =>
    match round a with
    | (true, b) => loop round n b
    | (false, b) => b

@[simp] theorem loop_zero {α : Type} (round : α → Bool × α) (a : α) : loop round 0 a = a := rfl

theorem loop_of_again {α : Type} {round : α → Bool × α} {a : α} (h : (round a).1 = true) (n : Nat) :
    loop round (n + 1) a = loop round n (round a).2 := by
  have e : round a = (true, (round a).2) := Prod.ext h rfl
  rw [loop, e]

theorem loop_of_stop {α : Type} {round : α → Bool × α} {a : α} (h : (round a).1 = false) (n : Nat) :
    loop round (n + 1) a = (round a).2 := by
  have e : round a = (false, (round a).2) := Prod.ext h rfl
  rw [loop, e]

/-- A round that changes nothing and does not ask for another ends the loop where it begins. -/
theorem loop_of_idle {α : Type} {round : α → Bool × α} {a : α} (idle : round a = (false, a))
    (n : Nat) : loop round n a = a := by
  cases n with
  | zero => rfl
  | succ n => rw [loop_of_stop (congrArg Prod.fst idle), idle]

/-- What every round keeps, the loop keeps. -/
theorem loop_keeps {α : Type} {P : α → Prop} {round : α → Bool × α}
    (keeps : ∀ a, P a → P (round a).2) (n : Nat) {a : α} (h : P a) : P (loop round n a) := by
  induction n generalizing a with
  | zero => exact h
  | succ n ih =>
    cases again : (round a).1 with
    | true => rw [loop_of_again again]; exact ih (keeps a h)
    | false => rw [loop_of_stop again]; exact keeps a h

/-- What a round keeps of two states, a loop of such rounds keeps. -/
theorem loop_keeps_both {α : Type} {R : α → α → Prop} {round : α → Bool × α}
    (each : ∀ a b, R a b → (round b).1 = (round a).1 ∧ R (round a).2 (round b).2) (n : Nat) {a b : α}
    (h : R a b) : R (loop round n a) (loop round n b) := by
  induction n generalizing a b with
  | zero => exact h
  | succ n ih =>
    obtain ⟨same, kept⟩ := each a b h
    cases again : (round a).1 with
    | true =>
      rw [loop_of_again again, loop_of_again (same.trans again)]
      exact ih kept
    | false =>
      rw [loop_of_stop again, loop_of_stop (same.trans again)]
      exact kept

end DescriptorRings
