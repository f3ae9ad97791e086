import DescriptorRings.Proofs.Receive.Service

/-!
# One owner for each receive buffer, and none of them shared with the adapter

A receive ring is made over a pool, and used in any way: it is started, served and cancelled, frames
are dropped or detached, and handles are used, in any order and in the callbacks as well.

* `buffers_have_one_owner`: between two requests each buffer of the pool is free, or in one slot, or
  out under one handle.  This does not depend on the adapter, whose counter may read anything and
  whose completions may say anything.

* `adapter_fills_posted_buffers`: if the adapter keeps the law of its direction, then at every
  moment the descriptors that it may still fill are those of posted buffers, and no buffer that
  waits to be filled is taken from it.

Both are read off the guard of `Proofs.Receive.Guard`.  For the first the adapter may make any move,
and nothing is said of its window; for the second its moves are lawful.
-/

namespace DescriptorRings

open Relation List

/-! ## What a run begins with -/

/-- A machine with a receive ring of the given size that was made just now over a pool that was also
made just now, which keeps a complete journal and remembers its moments. -/
structure Machine.NewRx (place slots : Nat) (m : Machine) : Prop where
  /-- The ring is new. -/
  made : ∃ bufferSize pad r, RxRing.create place bufferSize slots pad = .ok r ∧ m.rx = some r
  /-- So is the pool, which has no more buffers than there are names for. -/
  pool : ∃ id layout addresses, addresses.length ≤ Config.maxBuffers ∧
    m.poolAt? place = some (.ofAddresses id layout addresses)
  /-- No frame is held. -/
  frames : m.frames = #[]
  /-- No handle is out. -/
  handles : m.handles = #[]
  /-- Every event is kept. -/
  complete : m.journal.detail = .complete
  /-- Every moment is remembered. -/
  moments : m.moments = some []

/-- A machine with a new receive ring over a new pool, and an adapter that goes round the ring. -/
def Machine.withRx (size : RingSize) (buffers : Nat) : Machine where
  adapter := { rxSlots := size.slots }
  pools := #[{
    pool := .ofAddresses 1 ⟨Config.defaultBufferSize, Config.defaultBufferAlign⟩
      ((range buffers).map fun k => .ofNat (Config.defaultBufferSize * k)) }]
  rx := some
    { pool := 0
      size := size
      pad := Config.defaultLeadingPad
      slots := Array.replicate size.slots none }
  journal := { detail := .complete }
  moments := some []

theorem Machine.newRx_withRx (size : RingSize) {buffers : Nat}
    (named : buffers ≤ Config.maxBuffers) : (Machine.withRx size buffers).NewRx 0 size.slots := by
  refine ⟨⟨Config.defaultBufferSize, Config.defaultLeadingPad, _, ?_, rfl⟩,
    ⟨1, _, _, ?_, rfl⟩, rfl, rfl, rfl, rfl⟩
  · rw [RxRing.create, RingSize.ofNat?_slots]
    exact if_neg (by decide)
  · rwa [length_map, length_range]

/-- **A new ring begins idle**, whatever the adapter may do, if a lawful one is off. -/
theorem Machine.NewRx.idle {T : RxTerms} {m : Machine} (new : m.NewRx T.place T.size.slots)
    (planned : Machine.Permitted T.permits m.agenda) (off : T.lawful → m.adapter.on .rx = false) :
    RxIdle T m := by
  obtain ⟨bufferSize, pad, r, made, rx⟩ := new.made
  obtain ⟨id, layout, addresses, named, pool⟩ := new.pool
  obtain ⟨holds, place, slots⟩ := RxRing.holds_create made
  have size : r.size = T.size := RingSize.eq_of_slots_eq slots
  have out : m.toScene.out = [] := by
    rw [Scene.out, new.frames, new.handles]
    rfl
  have ledger : (BufferPool.ofAddresses id layout addresses).Ledger [] ([] ++ [])
      ([] ++ m.toScene.out) := by
    rw [out]
    exact BufferPool.ledger_ofAddresses id layout named
  refine ⟨0, ⟨r, _, [], rx, pool, place, size, new.complete, planned, holds, rfl, ledger, ?_,
    Nat.le_refl _, .nil _ _ _, fun _ => trivial, fun lawful on => ?_⟩, ?_⟩
  · rw [new.frames]
    exact fun f hf => absurd hf not_mem_nil
  · exact absurd ((off lawful).symm.trans on) Bool.false_ne_true
  · exact ⟨[], new.moments, fun s hs => absurd hs not_mem_nil, .nil,
      fun last hlast => absurd hlast.symm (Option.some_ne_none last)⟩

/-! ## One owner -/

/-- **Each buffer has one owner.**  However a new ring over a new pool is used, and whatever the
adapter answers, each buffer of the pool has one owner after every request, those that are made in
callbacks included. -/
theorem buffers_have_one_owner {place slots : Nat} {m₀ m : Machine} (new : m₀.NewRx place slots)
    (run : ReflTransGen (RxRequest (fun _ => True) place) m₀ m) :
    m.toScene.RingOver place slots (OneOwner m.toScene) ∧
      ∃ past, m.moments = some past ∧
        ∀ s ∈ past, s.journal.Replied → s.RingOver place slots (OneOwner s) := by
  obtain ⟨_, _, r, made, -⟩ := new.made
  obtain ⟨-, -, rfl⟩ := RxRing.holds_create made
  let T : RxTerms := ⟨place, r.size, fun _ => True, False, False.elim⟩
  have start : RxIdle T m₀ :=
    Machine.NewRx.idle (T := T) new (fun _ _ _ _ => trivial) fun lawful => lawful.elim
  obtain ⟨n, ⟨q, p, bs, guard⟩, past, hpast, sound, -⟩ := start.run run
  exact ⟨guard.ringOver (guard.oneOwner rfl rfl rfl), past, hpast, fun s hs => (sound s hs).owner⟩

/-- Of two frames one is detached and the other is lost.  Then the adapter's counter reads nonsense,
and the ring is started anew with the buffers that are left. -/
theorem buffers_have_one_owner_detached :
    ∃ m, ReflTransGen (RxRequest (fun _ => True) 0) (.withRx ⟨4, by decide⟩ 4) m ∧
      m.handles.size = 1 ∧ m.rx.map RxRing.posted = some 3 ∧
      m.toScene.RingOver 0 4 (OneOwner m.toScene) ∧
        ∃ past, m.moments = some past ∧
          ∀ s ∈ past, s.journal.Replied → s.RingOver 0 4 (OneOwner s) := by
  let frame (status : UInt32) : Reception := ⟨[], 2, 66, status⟩
  let echo : Upper :=
    { disposal := fun _ => .detach, replies := [fun m => m.record (.replied .done)] }
  have abides : echo.Abides (Holding (fun _ => True) 0) := by
    intro reply h m
    obtain rfl := mem_singleton.mp h
    exact .single (.reply m .done)
  have run : ReflTransGen (RxRequest (fun _ => True) 0) (.withRx ⟨4, by decide⟩ 4) _ :=
    ReflTransGen.refl
      |>.tail (.start _)
      |>.tail (.holding (@Holding.move _ _ _ (.receive (frame RxStatus.wholeFrame)) trivial))
      |>.tail (.holding (@Holding.move _ _ _ (.receive (frame 0)) trivial))
      |>.tail (.advance _ abides)
      |>.tail (.holding (@Holding.move _ _ _ (.assign .rxConsumer 1000) trivial))
      |>.tail (.advance _ (Upper.abides_silent _))
      |>.tail (.start _)
  exact ⟨_, run, by decide +kernel, by decide +kernel,
    buffers_have_one_owner (Machine.newRx_withRx ⟨4, by decide⟩ (by decide)) run⟩

/-! ## A lawful adapter -/

/-- **The adapter fills posted buffers only.**  A new ring over a new pool is used in any way, with
an adapter whose receive direction is off at first and which keeps the law of that direction.  Then
at every moment, in the middle of a request as well, what the adapter may still fill are posted
buffers, each in one slot, and from one moment to the next none that waits is taken from it. -/
theorem adapter_fills_posted_buffers {place slots : Nat} {m₀ m : Machine}
    (new : m₀.NewRx place slots) (off : m₀.adapter.isOn .rxDmaControl = false)
    (planned : Machine.Permitted (Move.Lawful .rx) m₀.agenda)
    (run : ReflTransGen (RxRequest (Move.Lawful .rx) place) m₀ m) :
    (m.Throughout fun s => s.adapter.isOn .rxDmaControl = true →
      s.RingOver place slots fun r p => ∃ live, RxSafe s r p live) ∧
      m.Successive Scene.LeavesInPlace := by
  obtain ⟨_, _, r, made, -⟩ := new.made
  obtain ⟨-, -, rfl⟩ := RxRing.holds_create made
  let T : RxTerms := ⟨place, r.size, Move.Lawful .rx, True, fun _ _ lawful => lawful⟩
  have start : RxIdle T m₀ := Machine.NewRx.idle (T := T) new planned fun _ => off
  obtain ⟨n, ⟨q, p, bs, guard⟩, past, hpast, sound, chain, latest⟩ := start.run run
  refine ⟨⟨past, hpast, fun s hs on => ?_⟩, past, hpast, ?_⟩
  · rcases mem_cons.mp hs with rfl | hs
    · exact guard.ringOver (guard.safe trivial on)
    · exact (sound s hs).safe trivial on
  · exact (chain.imp fun _ _ left => left trivial).cons fun last hlast =>
      (latest last hlast).2 trivial

/-- While one frame is being taken in and held, another one arrives. -/
theorem adapter_fills_posted_buffers_between :
    ∃ m, ReflTransGen (RxRequest (Move.Lawful .rx) 0) (.withRx ⟨4, by decide⟩ 4) m ∧
      m.adapter.isOn .rxDmaControl = true ∧ m.frames.size = 1 ∧ m.adapter.ahead .rx = 2 ∧
      (m.Throughout fun s => s.adapter.isOn .rxDmaControl = true →
        s.RingOver 0 4 fun r p => ∃ live, RxSafe s r p live) ∧
        m.Successive Scene.LeavesInPlace := by
  let fill : Move := .fill ⟨[], 2, 66, RxStatus.wholeFrame⟩
  have lawful : fill.Lawful .rx := Move.lawful_fill _
  have planned : Machine.Permitted (Move.Lawful .rx) [[], [fill]] := by
    intro moves h mv hmv
    rcases mem_pair.mp h with rfl | rfl
    · exact absurd hmv not_mem_nil
    · rwa [mem_singleton.mp hmv]
  have run : ReflTransGen (RxRequest (Move.Lawful .rx) 0) (.withRx ⟨4, by decide⟩ 4) _ :=
    ReflTransGen.refl
      |>.tail (.start _)
      |>.tail (.holding (.move _ lawful))
      |>.tail (.plan _ planned)
      |>.tail (.advance _ (u := { disposal := fun _ => .hold }) fun _ h => absurd h not_mem_nil)
  exact ⟨_, run, by decide +kernel, by decide +kernel, by decide +kernel,
    adapter_fills_posted_buffers (Machine.newRx_withRx ⟨4, by decide⟩ (by decide)) (by decide)
      (fun _ h => absurd h not_mem_nil) run⟩

end DescriptorRings
