/-!
# The phase of a ring

A ring of either direction is stopped, running or cancelled.  A ring that was never started, or
whose start failed, is stopped: serving it does nothing.  Serving a running ring moves packets or
frames.  Serving a cancelled ring only gives back what it still holds.
-/

namespace DescriptorRings

/-- What serving a ring means at present. -/
inductive Phase where
  /-- Nothing happens. -/
  | stopped
  /-- Descriptors are posted and completions are taken in. -/
  | running
  /-- What the ring holds is given back. -/
  | cancelled
  deriving DecidableEq, Repr, Inhabited

end DescriptorRings
