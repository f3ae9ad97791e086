import DescriptorRings.Machine.Upper

/-!
# Arming and signalling

The adapter may interrupt for exactly the armed directions: every change of what is armed writes
`irqEnable` anew.

A signal first acknowledges its causes, so that a cause that becomes pending from then on is not
lost; then it disarms the directions that it fires and puts all of their notifications in flight;
only then is the upper layer called, once for each.  Arming again from inside a notification is
therefore possible.  Disarming from inside one waits for the notifications of that direction to
return, and waits for good if one of them is the caller's own or stands behind it.
-/

namespace DescriptorRings

namespace Machine

/-- Makes an arbiter with nothing armed. -/
def createArbiter (m : Machine) : Machine :=
  { m.write .irqEnable 0 with arbiter := some {} }

/-- Lets the adapter interrupt for exactly the armed directions. -/
def writeEnabled (m : Machine) : Machine :=
  let mask := (m.arbiter.map Arbiter.enabledMask).getD 0
  m.write .irqEnable mask

/-- Waits until no notification of a direction is in flight.  Everything that could return has
returned by now, so a wait that does not end at once does not end at all. -/
def awaitQuiet (m : Machine) (d : Direction) : Machine :=
  if m.arbiter.any fun a => a.isNotifying d then { m with stalled := some d } else m

/-- Arms or disarms a direction. -/
def setArmed (m : Machine) (d : Direction) (on : Bool) : Machine :=
  let before := m.arbiter.any fun a => a.isArmed d
  let m := (m.modifyArbiter fun a => a.setArmed d on).record (.armed d before on)
  let m := m.writeEnabled.give (.armed d on)
  if on then m else m.awaitQuiet d

/-- Notifies the upper layer of a direction that has been fired. -/
def deliverNotification (s : Served) (d : Direction) : Served :=
  (s.notify d).onMachine fun m => m.modifyArbiter fun a => a.settle d

/-- Handles a signal with the given causes, and answers with the directions notified. -/
def signal (m : Machine) (u : Upper) (pending : UInt32) : List Direction × Served :=
  if pending = 0 then ([], .start u m)
  else
    let m := m.write .irqClear pending
    let fired := (m.arbiter.map fun a => a.fires pending).getD []
    let m := (m.modifyArbiter fun a => a.fireAll fired).writeEnabled
    (fired, fired.foldl deliverNotification (.start u m))

end Machine

end DescriptorRings
