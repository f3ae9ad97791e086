import DescriptorRings.Device.Flags

/-!
# One-shot notifications

The upper layer *arms* a direction when it wants to hear of completions.  The next signal for that
direction disarms it, masks its interrupt and notifies the upper layer once; further signals are
dropped until the direction is armed again.

A notification that has been decided and has not returned yet is *in flight*.  Disarming a direction
waits until none of its notifications is in flight, so that nobody is called back after having
disarmed.  All directions that one signal fires are put in flight together, and are notified one
after the other.
-/

namespace DescriptorRings

/-! ## Directions -/

/-- A direction of transfer. -/
inductive Direction where
  /-- Towards the line. -/
  | tx
  /-- From the line. -/
  | rx
  deriving DecidableEq, Repr

namespace Direction

/-- Both directions, in the order in which they are notified. -/
def all : List Direction := [.tx, .rx]

/-- The interrupt cause of a direction. -/
def mask : Direction → UInt32
  | .tx => IrqMask.txDone
  | .rx => IrqMask.rxDone

/-- The name of a direction. -/
def name : Direction → String
  | .tx => "Tx"
  | .rx => "Rx"

/-- The causes of several directions together. -/
def masks (ds : List Direction) : UInt32 := ds.foldl (fun acc d => acc ||| d.mask) 0

end Direction

/-- A value for each direction. -/
structure PerDirection (α : Type) where
  /-- The value of the transmit direction. -/
  tx : α
  /-- The value of the receive direction. -/
  rx : α
  deriving DecidableEq, Repr

namespace PerDirection

variable {α : Type}

/-- The value of a direction. -/
def get (p : PerDirection α) : Direction → α
  | .tx => p.tx
  | .rx => p.rx

/-- Changes the value of a direction. -/
def modify (p : PerDirection α) (d : Direction) (f : α → α) : PerDirection α :=
  match d with
  | .tx => { p with tx := f p.tx }
  | .rx => { p with rx := f p.rx }

@[simp] theorem get_modify_self (p : PerDirection α) (d : Direction) (f : α → α) :
    (p.modify d f).get d = f (p.get d) := by
  cases d <;> rfl

theorem get_modify_of_ne (p : PerDirection α) {d e : Direction} (h : e ≠ d) (f : α → α) :
    (p.modify d f).get e = p.get e := by
  cases d <;> cases e <;> simp_all [modify, get]

end PerDirection

/-! ## The arbiter -/

/-- What the upper layer has asked to hear of, and what it is being told. -/
structure Arbiter where
  /-- Which directions are armed. -/
  armed : PerDirection Bool := ⟨false, false⟩
  /-- How many notifications of each direction are in flight. -/
  inFlight : PerDirection Nat := ⟨0, 0⟩
  deriving DecidableEq, Repr

namespace Arbiter

/-- Whether a direction is armed. -/
def isArmed (a : Arbiter) (d : Direction) : Bool := a.armed.get d

/-- The directions that are armed. -/
def armedDirections (a : Arbiter) : List Direction := Direction.all.filter a.isArmed

/-- The causes of the armed directions: what the adapter may interrupt for. -/
def enabledMask (a : Arbiter) : UInt32 := Direction.masks a.armedDirections

/-- Whether a notification of a direction is in flight. -/
def isNotifying (a : Arbiter) (d : Direction) : Bool := a.inFlight.get d != 0

/-- The armed directions whose causes are pending. -/
def fires (a : Arbiter) (pending : UInt32) : List Direction :=
  Direction.all.filter fun d => hasBits pending d.mask && a.isArmed d

/-- Arms or disarms a direction. -/
def setArmed (a : Arbiter) (d : Direction) (on : Bool) : Arbiter :=
  { a with armed := a.armed.modify d fun _ => on }

/-- Disarms a direction and puts a notification in flight. -/
def fire (a : Arbiter) (d : Direction) : Arbiter :=
  { armed := a.armed.modify d fun _ => false, inFlight := a.inFlight.modify d (· + 1) }

/-- Fires several directions. -/
def fireAll (a : Arbiter) (ds : List Direction) : Arbiter := ds.foldl fire a

/-- A notification has returned. -/
def settle (a : Arbiter) (d : Direction) : Arbiter :=
  { a with inFlight := a.inFlight.modify d (· - 1) }

@[simp] theorem isArmed_setArmed_self (a : Arbiter) (d : Direction) (on : Bool) :
    (a.setArmed d on).isArmed d = on := by
  simp [isArmed, setArmed]

@[simp] theorem isArmed_fire_self (a : Arbiter) (d : Direction) : (a.fire d).isArmed d = false := by
  simp [isArmed, fire]

end Arbiter

end DescriptorRings
