/-!
# The adapter's registers

Software and adapter share nine words.  A doorbell and a consumer counter for each direction, three
words for interrupts, and one switch for each direction.
-/

namespace DescriptorRings

/-- The registers, in the order of their indices. -/
inductive Register where
  /-- How far software has posted transmit descriptors. -/
  | txProducer
  /-- How far the adapter has consumed them. -/
  | txConsumer
  /-- How far software has posted receive descriptors. -/
  | rxProducer
  /-- How far the adapter has filled them. -/
  | rxConsumer
  /-- Interrupt causes that wait for service. -/
  | irqStatus
  /-- Writing a cause here acknowledges it. -/
  | irqClear
  /-- Interrupt causes that may interrupt. -/
  | irqEnable
  /-- The switch of the transmit direction. -/
  | txDmaControl
  /-- The switch of the receive direction. -/
  | rxDmaControl
  deriving DecidableEq, Repr

namespace Register

/-- All registers, in order. -/
def all : List Register :=
  [.txProducer, .txConsumer, .rxProducer, .rxConsumer, .irqStatus, .irqClear, .irqEnable,
    .txDmaControl, .rxDmaControl]

/-- The place of a register in that order. -/
def index : Register → Nat
  | .txProducer => 0
  | .txConsumer => 1
  | .rxProducer => 2
  | .rxConsumer => 3
  | .irqStatus => 4
  | .irqClear => 5
  | .irqEnable => 6
  | .txDmaControl => 7
  | .rxDmaControl => 8

/-- The name of a register. -/
def name : Register → String
  | .txProducer => "TxProducer"
  | .txConsumer => "TxConsumer"
  | .rxProducer => "RxProducer"
  | .rxConsumer => "RxConsumer"
  | .irqStatus => "IrqStatus"
  | .irqClear => "IrqClear"
  | .irqEnable => "IrqEnable"
  | .txDmaControl => "TxDmaControl"
  | .rxDmaControl => "RxDmaControl"

/-- The register of a name. -/
def ofName? (s : String) : Option Register := all.find? fun r => r.name == s

end Register

/-- The contents of the nine registers. -/
structure RegisterFile where
  /-- Contents of `txProducer`. -/
  txProducer : UInt32 := 0
  /-- Contents of `txConsumer`. -/
  txConsumer : UInt32 := 0
  /-- Contents of `rxProducer`. -/
  rxProducer : UInt32 := 0
  /-- Contents of `rxConsumer`. -/
  rxConsumer : UInt32 := 0
  /-- Contents of `irqStatus`. -/
  irqStatus : UInt32 := 0
  /-- Contents of `irqClear`. -/
  irqClear : UInt32 := 0
  /-- Contents of `irqEnable`. -/
  irqEnable : UInt32 := 0
  /-- Contents of `txDmaControl`. -/
  txDmaControl : UInt32 := 0
  /-- Contents of `rxDmaControl`. -/
  rxDmaControl : UInt32 := 0
  deriving DecidableEq, Repr

namespace RegisterFile

/-- What a register holds. -/
def get (f : RegisterFile) : Register → UInt32
  | .txProducer => f.txProducer
  | .txConsumer => f.txConsumer
  | .rxProducer => f.rxProducer
  | .rxConsumer => f.rxConsumer
  | .irqStatus => f.irqStatus
  | .irqClear => f.irqClear
  | .irqEnable => f.irqEnable
  | .txDmaControl => f.txDmaControl
  | .rxDmaControl => f.rxDmaControl

/-- Changes what one register holds. -/
def set (f : RegisterFile) (r : Register) (v : UInt32) : RegisterFile :=
  match r with
  | .txProducer => { f with txProducer := v }
  | .txConsumer => { f with txConsumer := v }
  | .rxProducer => { f with rxProducer := v }
  | .rxConsumer => { f with rxConsumer := v }
  | .irqStatus => { f with irqStatus := v }
  | .irqClear => { f with irqClear := v }
  | .irqEnable => { f with irqEnable := v }
  | .txDmaControl => { f with txDmaControl := v }
  | .rxDmaControl => { f with rxDmaControl := v }

@[simp] theorem get_set_self (f : RegisterFile) (r : Register) (v : UInt32) :
    (f.set r v).get r = v := by
  cases r <;> rfl

theorem get_set_of_ne (f : RegisterFile) {r s : Register} (h : s ≠ r) (v : UInt32) :
    (f.set r v).get s = f.get s := by
  cases r <;> cases s <;> simp_all [get, set]

end RegisterFile

end DescriptorRings
