/-!
# Arithmetic that must stay inside a machine word

Sizes, addresses and counts are sixty-four-bit words.  Where a result would not fit, or a remainder
has nothing to divide by, there is no answer, and the operation names which of the four things went
wrong instead of wrapping round.

The words themselves are naturals: every checked operation below returns a natural that fits
whenever its arguments do, which is all that a word is.
-/

namespace DescriptorRings

/-- The first natural that does not fit a sixty-four-bit word. -/
def wordSpan : Nat := 18446744073709551616

/-- What can go wrong in word arithmetic. -/
inductive Fault where
  /-- A sum does not fit. -/
  | sumTooLarge
  /-- A difference would lie below zero. -/
  | belowZero
  /-- A product does not fit. -/
  | productTooLarge
  /-- A remainder was asked for by a divisor of zero. -/
  | zeroDivisor
  deriving DecidableEq, Repr

namespace Fault

/-- The wording of a fault. -/
def message : Fault → String
  | .sumTooLarge => "attempt to add with overflow"
  | .belowZero => "attempt to subtract with overflow"
  | .productTooLarge => "attempt to multiply with overflow"
  | .zeroDivisor => "attempt to calculate the remainder with a divisor of zero"

end Fault

namespace Checked

/-- A sum, if it fits. -/
def add (a b : Nat) : Except Fault Nat :=
  if a + b < wordSpan then .ok (a + b) else .error .sumTooLarge

/-- A difference, if it is not below zero. -/
def sub (a b : Nat) : Except Fault Nat :=
  if b ≤ a then .ok (a - b) else .error .belowZero

/-- A product, if it fits. -/
def mul (a b : Nat) : Except Fault Nat :=
  if a * b < wordSpan then .ok (a * b) else .error .productTooLarge

theorem sub_eq_ok_iff {a b c : Nat} : sub a b = .ok c ↔ b ≤ a ∧ c = a - b := by
  unfold sub
  split <;> simp [eq_comm] <;> omega

theorem mul_eq_ok_iff {a b c : Nat} : mul a b = .ok c ↔ a * b < wordSpan ∧ c = a * b := by
  unfold mul
  split <;> simp [eq_comm] <;> omega

end Checked

end DescriptorRings
