import DescriptorRings.Script.Session
import DescriptorRings.Proofs.Counter.Window
import DescriptorRings.Proofs.Machine.History
import DescriptorRings.Proofs.Machine.Moments
import DescriptorRings.Proofs.Machine.Entries
import DescriptorRings.Proofs.Transmit.Course
import DescriptorRings.Proofs.Transmit.Callback
import DescriptorRings.Proofs.Transmit.Simulation
import DescriptorRings.Proofs.Transmit.Submission
import DescriptorRings.Proofs.Transmit.Ledger
import DescriptorRings.Proofs.Device.Law
import DescriptorRings.Proofs.Transmit.Guard
import DescriptorRings.Proofs.Transmit.Flight
import DescriptorRings.Proofs.Transmit.Deque
import DescriptorRings.Proofs.Transmit.Completion
import DescriptorRings.Proofs.Receive.Pool
import DescriptorRings.Proofs.Receive.Window
import DescriptorRings.Proofs.Machine.Pools
import DescriptorRings.Proofs.Receive.Guard
import DescriptorRings.Proofs.Receive.Steps
import DescriptorRings.Proofs.Receive.Hands
import DescriptorRings.Proofs.Receive.Service
import DescriptorRings.Proofs.Receive.Ownership
import DescriptorRings.Proofs.Transmit.Reclaim
import DescriptorRings.Proofs.Transmit.Cancellation
import DescriptorRings.Proofs.Transmit.Doorbell
import DescriptorRings.Proofs.Transmit.Emission
import DescriptorRings.Proofs.Transmit.Stream
import DescriptorRings.Proofs.Receive.Course
import DescriptorRings.Proofs.Device.Memory
import DescriptorRings.Proofs.Receive.Arrivals
import DescriptorRings.Proofs.Receive.Flow
import DescriptorRings.Proofs.Receive.Frames
import DescriptorRings.Proofs.Receive.Delivery
import DescriptorRings.Proofs.Receive.PoolCalls
import DescriptorRings.Proofs.Receive.Handles
import DescriptorRings.Proofs.Signal.Transcript
import DescriptorRings.Proofs.Signal.Notification
import DescriptorRings.Proofs.Machine.Strokes
import DescriptorRings.Proofs.Machine.Latches
import DescriptorRings.Proofs.Transmit.Progress
import DescriptorRings.Proofs.Receive.Start
import DescriptorRings.Proofs.Engine.Course
import DescriptorRings.Proofs.Engine.Rings
import DescriptorRings.Proofs.Engine.Switch
import DescriptorRings.Proofs.Engine.Arbiter
import DescriptorRings.Proofs.Engine.Silence
import DescriptorRings.Proofs.Engine.Sizing
import DescriptorRings.Proofs.Engine.Start
import DescriptorRings.Proofs.Engine.Stop
import DescriptorRings.Proofs.Machine.Blocks
import DescriptorRings.Proofs.Engine.Remains
import DescriptorRings.Proofs.Engine.TakeDown
import DescriptorRings.Proofs.Engine.Causes
import DescriptorRings.Proofs.Engine.Intake
import DescriptorRings.Proofs.Engine.Interrupt
import DescriptorRings.Proofs.Machine.Estate
import DescriptorRings.Proofs.Machine.Upkeep
import DescriptorRings.Proofs.Engine.Fleet
import DescriptorRings.Proofs.Transmit.Shift
import DescriptorRings.Proofs.Transmit.Translation
import DescriptorRings.Proofs.Receive.Deeds
import DescriptorRings.Proofs.Receive.Dealings
import DescriptorRings.Proofs.Receive.Balance
import DescriptorRings.Proofs.Machine.Strict
import DescriptorRings.Proofs.Transmit.Strictness
import DescriptorRings.Proofs.Receive.Strictness
import DescriptorRings.Proofs.Engine.Calm
import DescriptorRings.Proofs.Engine.Strictness
import DescriptorRings.Proofs.Signal.Disarming
import DescriptorRings.Proofs.Receive.Refill
import DescriptorRings.Proofs.Receive.Launch
import DescriptorRings.Proofs.Transmit.Standstill
import DescriptorRings.Proofs.Counter.Comparison
import DescriptorRings.Proofs.Engine.Defaults
import DescriptorRings.Proofs.Machine.Sides
import DescriptorRings.Proofs.Transmit.Independence
import DescriptorRings.Proofs.Receive.Independence
import DescriptorRings.Proofs.Engine.Independence
