import DescriptorRings.Device.Descriptor

/-!
# The directory of blocks

The adapter knows memory by address, and the allocator may put a block at any address at all.  The
*directory* says which block starts at an address.  It is a tree over the bits of the address, as
page tables are: finding a block and entering one take as many steps as an address has bits, however
many blocks there are.

An address where a block is entered names that block from then on, whatever it named before.
-/

namespace DescriptorRings

/-- The bits of an address, the lowest first. -/
def BusAddress.bits (a : BusAddress) : List Bool := (List.range 64).map a.toNat.testBit

/-- A tree over bits, with the numbers of blocks in it. -/
inductive Directory where
  /-- No block is below. -/
  | vacant
  /-- The block that is right here, if there is one, and those behind a zero and behind a one. -/
  | fork (here : Option Nat) (zero one : Directory)
  deriving Inhabited, Repr

namespace Directory

/-- The block at the end of a path. -/
def find? : Directory → List Bool → Option Nat
  | vacant, _ => none
  | fork here _ _, [] => here
  | fork _ zero _, false :: path => zero.find? path
  | fork _ _ one, true :: path => one.find? path

/-- Enters a block at the end of a path. -/
def enter (k : Nat) : List Bool → Directory → Directory
  | [], vacant => fork (some k) vacant vacant
  | [], fork _ zero one => fork (some k) zero one
  | false :: path, vacant => fork none (enter k path vacant) vacant
  | false :: path, fork here zero one => fork here (enter k path zero) one
  | true :: path, vacant => fork none vacant (enter k path vacant)
  | true :: path, fork here zero one => fork here zero (enter k path one)

/-- A block is found where it was entered. -/
@[simp] theorem find?_enter_self (k : Nat) (path : List Bool) (d : Directory) :
    (d.enter k path).find? path = some k := by
  induction path generalizing d with
  | nil => cases d <;> rfl
  | cons bit path ih => cases d <;> cases bit <;> simp [enter, find?, ih]

/-- Elsewhere there is found what was there before. -/
theorem find?_enter_of_ne (k : Nat) {path other : List Bool} (h : other ≠ path) (d : Directory) :
    (d.enter k path).find? other = d.find? other := by
  induction path generalizing d other with
  | nil =>
    cases other with
    | nil => exact absurd rfl h
    | cons bit other => cases d <;> cases bit <;> simp [enter, find?]
  | cons bit path ih =>
    cases other with
    | nil => cases d <;> cases bit <;> rfl
    | cons bit' other =>
      by_cases same : bit' = bit
      · subst same
        have ne : other ≠ path := fun same => h (congrArg _ same)
        cases d <;> cases bit' <;> simp [enter, find?, ih ne]
      · cases d <;> cases bit <;> cases bit' <;> simp_all [enter, find?]

end Directory

end DescriptorRings
