import DescriptorRings.Script.Command

/-!
# Steps

A step is a command, or a *service* in whose course the upper layer is called back, or a run of
steps repeated without a word in the journal.  What the upper layer does in the callbacks of a
service is laid down by steps again: the `k`-th list of replies is run in the `k`-th callback, and
what each of its steps comes to is entered in the journal.

Steps are data, and their meaning is recursion on that data.  A list of replies means a change of
the machine, and that is all that a service is given: no operation on the rings knows of steps.
-/

namespace DescriptorRings

/-- A request in whose course the upper layer is called back. -/
inductive Service where
  /-- Stop the engine. -/
  | stop
  /-- Serve an interrupt. -/
  | interrupt
  /-- Serve the transmit ring. -/
  | advanceTx
  /-- Serve the receive ring. -/
  | advanceRx
  /-- Handle a signal with the given causes. -/
  | signal (pending : UInt32)
  deriving DecidableEq, Repr

/-- One step of a script. -/
inductive Step where
  /-- A command. -/
  | command (c : Command)
  /-- A service, what becomes of its frames, and the replies to its callbacks. -/
  | service (s : Service) (disposals : List Disposal) (replies : List (List Step))
  /-- Steps run `n` times without a word. -/
  | repeated (n : Nat) (body : List Step)

namespace Machine

/-- A service that comes to a count. -/
def counted (s : Served) : Outcome × Machine := (.count s.count, s.machine)

/-- Carries out a service. -/
def serve (m : Machine) (s : Service) (u : Upper) : Outcome × Machine :=
  match s with
  | .stop => m.provided m.engine.isSome fun m => (.done, (m.stopEngine u).machine)
  | .interrupt =>
    m.provided m.engine.isSome fun m =>
      let (pending, s) := m.interrupt u
      (.count pending.toNat, s.machine)
  | .advanceTx => m.provided m.tx.isSome fun m => counted (m.advanceTx u)
  | .advanceRx => m.provided m.rx.isSome fun m => counted (m.advanceRx u)
  | .signal pending =>
    m.provided m.arbiter.isSome fun m =>
      let (fired, s) := m.signal u pending
      (.count (Direction.masks fired).toNat, s.machine)

end Machine

namespace Step

mutual

/-- Runs a step. -/
def run : Step → Machine → Outcome × Machine
  | .command c, m => m.obey c
  | .service s disposals replies, m =>
    m.serve s { disposal := Upper.cycle disposals, replies := reactions replies }
  | .repeated n body, m => (.done, m.muted fun m => (loop (fun m => (true, runAll body m)) n m))

/-- Runs steps, and forgets what they come to. -/
def runAll : List Step → Machine → Machine
  | [], m => m
  | s :: rest, m => runAll rest (run s m).2

/-- Runs steps in a callback, and enters what they come to in the journal. -/
def runReplies : List Step → Machine → Machine
  | [], m => m
  | s :: rest, m =>
    let (o, m) := run s m
    runReplies rest (m.record (.replied o))

/-- The changes of the machine that lists of replies mean. -/
def reactions : List (List Step) → List (Machine → Machine)
  | [] => []
  | r :: later => runReplies r :: reactions later

end

end Step

end DescriptorRings
