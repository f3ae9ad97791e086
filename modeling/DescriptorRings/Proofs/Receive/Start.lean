import DescriptorRings.Proofs.Machine.Entries
import DescriptorRings.Proofs.Receive.Service

/-!
# How a start ends

Starting a receive ring takes a buffer for every usable slot, and it depends on the pool alone
whether there are so many.  Since the buffers of an earlier run are taken back first, there is only
one thing that can keep a buffer from the ring: the upper layer has it.  So the start is refused
just when the buffers that are not out are fewer than the usable slots, and then it says how many
there were (`Machine.startRx_of_short`, `RxAt.startRx_of_enough`).

A ring whose start was refused is left in the same way as a cancelled ring that was served: it is
empty, and what it held is free again (`RxEmptied`).  Nothing was shown and no buffer was posted on
the way there (`Event.isRxHushed`).
-/

namespace DescriptorRings

open Relation List

/-! ## The ledger in numbers -/

namespace BufferPool

variable {p p' : BufferPool} {b : BufferId} {acquired posted acquired' posted' : List BufferId}
  {out : List ReturnHandle}

namespace Ledger

/-- **The tally is read off the ledger.** -/
theorem tally_eq (l : p.Ledger acquired posted out) :
    p.tally =
      { free := p.available
        acquired := acquired.length
        posted := posted.length
        delivered := out.length } := by
  have free : p.tally.free = p.available := l.free.number_tally l.named
  have acquired : p.tally.acquired = acquired.length := l.acquired.number_tally l.named
  have posted : p.tally.posted = posted.length := l.posted.number_tally l.named
  have delivered : p.tally.delivered = out.length :=
    (l.delivered.number_tally l.named).trans (length_map _)
  rw [← free, ← acquired, ← posted, ← delivered]

/-- Every buffer is somewhere. -/
theorem total (l : p.Ledger acquired posted out) :
    p.available + acquired.length + posted.length + out.length = p.capacity := by
  have total := p.total_tally
  rw [l.tally_eq] at total
  exact total

/-- What is not out is free, if nothing is in the driver's hands and nothing posted. -/
theorem available_eq (l : p.Ledger [] [] out) : p.available = p.capacity - out.length := by
  have total := l.total
  rw [length_nil] at total
  omega

theorem free_of_notMem (l : p.Ledger [] [] out) (inside : b.index < p.capacity)
    (kept : b ∉ out.map ReturnHandle.buffer) : p.stateOf? b = some .free := by
  have state : p.stateOf? b = some p.buffers[b.index].state := by
    rw [stateOf?, Array.getElem?_eq_getElem inside]
    rfl
  cases which : p.buffers[b.index].state with
  | free => rw [state, which]
  | acquired => exact absurd ((l.acquired.mem_iff b).mpr (state.trans (congrArg _ which))) not_mem_nil
  | posted => exact absurd ((l.posted.mem_iff b).mpr (state.trans (congrArg _ which))) not_mem_nil
  | delivered => exact absurd ((l.delivered.mem_iff b).mpr (state.trans (congrArg _ which))) kept

/-- **A buffer that stays out is left alone**, its state and its generation as well as its
address. -/
theorem untouched (l : p.Ledger acquired posted out) (l' : p'.Ledger acquired' posted' out)
    (kept : p.Kept p') (here : b ∈ out.map ReturnHandle.buffer) :
    p'.buffers[b.index]? = p.buffers[b.index]? := by
  obtain ⟨h, hh, rfl⟩ := mem_map.mp here
  have entry {q : BufferPool} {as ps : List BufferId} (l : q.Ledger as ps out) :
      ∃ x, q.buffers[h.buffer.index]? = some x ∧ x.state = .delivered ∧ x.generation = h.generation ∧
        x.address = q.base h.buffer := by
    obtain ⟨x, hx, state⟩ := Option.map_eq_some_iff.mp ((l.delivered.mem_iff h.buffer).mp here)
    have found : q.buffers.getD h.buffer.index default = x := by
      rw [Array.getD_eq_getD_getElem?, hx, Option.getD_some]
    refine ⟨x, hx, state, ?_, ?_⟩
    · rw [← found]
      exact congrArg ReturnHandle.generation (l.own h hh)
    · rw [base, found]
  obtain ⟨x, hx, state, generation, address⟩ := entry l
  obtain ⟨x', hx', state', generation', address'⟩ := entry l'
  rw [kept.base] at address'
  rw [hx, hx']
  cases x
  cases x'
  exact congrArg some (congr (congr (congrArg Buffer.mk (address'.trans address.symm))
    (state'.trans state.symm)) (generation'.trans generation.symm))

end Ledger

end BufferPool

/-! ## A ring that was emptied -/

/-- Whether an event neither posts a buffer nor shows a frame, and leaves the receive direction off.
-/
def Event.isRxHushed : Event → Bool
  | .wroteRx _ _ _ | .wrote .rxProducer _ | .delivered _ _ => false
  | .wrote .rxDmaControl v => v == DmaControl.off
  | _ => true

/-- A ring `r` over a pool `p` was emptied, and what it held is free again. -/
structure RxEmptied (r : RxRing) (p : BufferPool) (out : List ReturnHandle) (phase : Phase)
    (m m' : Machine) : Prop where
  /-- The ring is empty, and has counted what it held. -/
  rx : m'.rx = some (r.clear.enter phase)
  /-- The upper layer has what it had, and the other buffers are free. -/
  pool : ∃ p', m'.poolAt? r.pool = some p' ∧ p.Kept p' ∧ p'.Ledger [] [] out
  /-- No buffer was posted and no frame shown. -/
  hushed : m.Enters (fun e => e.isRxHushed = true) m'

namespace Machine

variable {m : Machine} {r : RxRing} {p : BufferPool} {out : List ReturnHandle}

theorem poolAt?_give (m : Machine) (n : Notice) (place : Nat) :
    (m.give n).poolAt? place = m.poolAt? place := by
  obtain ⟨j, h⟩ := exists_toScene_give m n
  have pools : (m.give n).pools = m.pools := by rw [h]
  rw [poolAt?, pools, poolAt?]

theorem poolAt?_write (m : Machine) (reg : Register) (v : UInt32) (place : Nat) :
    (m.write reg v).poolAt? place = m.poolAt? place := by
  refine Eq.trans ?_ (m.poolAt?_turn place)
  have pools : (m.write reg v).pools = m.turn.pools := by rw [write, toScene_record]
  rw [poolAt?, pools, poolAt?]

/-- **Taking all posted buffers back empties the ring.** -/
theorem emptied_recyclePosted (rx : m.rx = some r) (pool : m.poolAt? r.pool = some p)
    (ledger : p.Ledger [] r.held out) : RxEmptied r p out r.phase m m.recyclePosted := by
  obtain ⟨p', emptied, kept, ledger'⟩ := recyclePosted_eq rx pool ledger
  have cleared : m.Enters (fun e => e.isRxHushed = true) ((m.setPool r.pool p').setRx r.clear) :=
    .of_journal_eq _ rfl
  rw [emptied, giveIf]
  split
  · exact ⟨rx_give _ _, ⟨p', (poolAt?_give _ _ _).trans (poolAt?_setPool pool), kept, ledger'⟩,
      cleared.trans (.give (fun _ => rfl) _ _)⟩
  · exact ⟨rfl, ⟨p', poolAt?_setPool pool, kept, ledger'⟩, cleared⟩

/-- The direction is switched off, and what is left from an earlier run is taken back. -/
theorem emptied_before_start (rx : m.rx = some r) (pool : m.poolAt? r.pool = some p)
    (ledger : p.Ledger [] r.held out) :
    RxEmptied r p out r.phase m (m.write .rxDmaControl DmaControl.off).recyclePosted := by
  have emptied := emptied_recyclePosted ((m.rx_write _ _).trans rx)
    ((m.poolAt?_write .rxDmaControl DmaControl.off r.pool).trans pool) ledger
  have silenced := Enters.write (P := fun e => e.isRxHushed = true) (fun _ => rfl)
    (r := .rxDmaControl) (v := DmaControl.off) rfl m
  exact ⟨emptied.rx, emptied.pool, silenced.trans emptied.hushed⟩

/-- A start takes as many buffers as it needs, or all that are not out. -/
theorem acquireMany_before_start (rx : m.rx = some r) (pool : m.poolAt? r.pool = some p)
    (ledger : p.Ledger [] r.held out) :
    ∃ batch p', (m.write .rxDmaControl DmaControl.off).recyclePosted.acquireMany r.pool r.capacity =
        (batch, (m.write .rxDmaControl DmaControl.off).recyclePosted.setPool r.pool p') ∧
      p.Kept p' ∧ p'.Ledger batch [] out ∧
      batch.length = min r.capacity (p.capacity - out.length) := by
  obtain ⟨-, ⟨p₁, pool₁, kept₁, ledger₁⟩, -⟩ := emptied_before_start rx pool ledger
  obtain ⟨batch, p₂, acquired, kept₂, ledger₂, most, all⟩ :=
    acquireMany_eq pool₁ ledger₁ r.capacity
  have count : p₂.available + batch.length + out.length = p.capacity := by
    rw [← kept₁.capacity, ← kept₂.capacity, ← ledger₂.total]
    rfl
  refine ⟨batch, p₂, acquired, kept₁.trans kept₂, ledger₂, ?_⟩
  by_cases few : batch.length < r.capacity
  · rw [BufferPool.available, all few, length_nil] at count
    omega
  · omega

/-- What a start comes to that is refused. -/
theorem startRx_eq_of_short (rx : m.rx = some r) (pool : m.poolAt? r.pool = some p)
    (ledger : p.Ledger [] r.held out) (short : p.capacity - out.length < r.capacity) :
    ∃ p', m.startRx = (.error (.insufficientBuffers r.capacity (p.capacity - out.length)),
        (((m.write .rxDmaControl DmaControl.off).recyclePosted.setPool r.pool p').setRx
          (r.clear.enter .stopped)).give (.rxShort (p.capacity - out.length) r.capacity)) ∧
      p.Kept p' ∧ p'.Ledger [] [] out := by
  obtain ⟨rx₁, ⟨p₁, pool₁, -⟩, -⟩ := emptied_before_start rx pool ledger
  obtain ⟨batch, p₂, acquired, kept₂, ledger₂, length⟩ := acquireMany_before_start rx pool ledger
  set k := (m.write .rxDmaControl DmaControl.off).recyclePosted with hk
  obtain ⟨p₃, back, kept₃, ledger₃⟩ := putBackAll_eq batch (poolAt?_setPool pool₁) ledger₂
  rw [Nat.min_eq_right short.le] at length
  refine ⟨p₃, ?_, kept₂.trans kept₃, ledger₃⟩
  have stopped : (k.setPool r.pool p₃).modifyRx (fun q => q.enter .stopped) =
      (k.setPool r.pool p₃).setRx (r.clear.enter .stopped) :=
    modifyRx_eq_setRx (m := k.setPool r.pool p₃) rx₁ _
  unfold startRx
  rw [rx, Option.map_some]
  dsimp only
  rw [← hk, acquired]
  dsimp only
  rw [if_pos (length.trans_lt short), abortStart, back, setPool_setPool, length, ← stopped]

/-- **A start is refused if too many buffers are out**, and says how many are not. -/
theorem startRx_of_short (rx : m.rx = some r) (pool : m.poolAt? r.pool = some p)
    (ledger : p.Ledger [] r.held out) (short : p.capacity - out.length < r.capacity) :
    m.startRx.1 = .error (.insufficientBuffers r.capacity (p.capacity - out.length)) ∧
      RxEmptied r p out .stopped m m.startRx.2 := by
  obtain ⟨-, ⟨p₁, pool₁, -⟩, hushed⟩ := emptied_before_start rx pool ledger
  obtain ⟨p', refused, kept, ledger'⟩ := startRx_eq_of_short rx pool ledger short
  rw [refused]
  refine ⟨rfl, rx_give _ _, ⟨p', ?_, kept, ledger'⟩, ?_⟩
  · exact (poolAt?_give _ _ _).trans (poolAt?_setPool pool₁)
  · set k := (m.write .rxDmaControl DmaControl.off).recyclePosted
    have stopped : k.Enters (fun e => e.isRxHushed = true)
        ((k.setPool r.pool p').setRx (r.clear.enter .stopped)) := .of_journal_eq _ rfl
    exact hushed.trans (stopped.trans (.give (fun _ => rfl) _ _))

/-- A ring that was started is running. -/
theorem phase_startRx (rx : m.rx = some r) (ok : m.startRx.1 = .ok ()) {q : RxRing}
    (rx' : m.startRx.2.rx = some q) : q.phase = .running := by
  unfold startRx at ok rx'
  rw [rx, Option.map_some] at ok rx'
  dsimp only at ok rx'
  split at ok
  case isTrue short =>
    unfold abortStart at ok
    split at ok
    · exact nomatch ok
    · exact nomatch ok
  case isFalse enough =>
    rw [if_neg enough] at rx'
    unfold completeStart at ok rx'
    dsimp only at ok rx'
    split at ok
    · exact nomatch ok
    · next k posted =>
      rw [posted] at rx'
      rw [rx_give, rx_write, writeCounter, rx_write] at rx'
      obtain ⟨q', -, rfl⟩ := Option.map_eq_some_iff.mp rx'
      rfl

end Machine

/-! ## The buffers stay where they are -/

/-- No change moves the buffers of the pool. -/
theorem RxChange.kept {T : RxTerms} {switches : Prop} {g : Hands} {m m' : Machine} {r : RxRing}
    {p : BufferPool} {bs : List BufferId} {t t' : Taking}
    (change : RxChange T switches g m r p bs t t' m') (pool : m.poolAt? T.place = some p) :
    ∃ p', m'.poolAt? T.place = some p' ∧ p.Kept p' := by
  have recorded {k : Machine} (e : Event) (same : k.poolAt? T.place = some p) :
      ∃ p', (k.record e).poolAt? T.place = some p' ∧ p.Kept p' :=
    ⟨p, (k.poolAt?_record e T.place).trans same, .refl p⟩
  cases change with
  | move | note | reply | write | writeTx | ring | switch | describe | take | deliver =>
    exact recorded _ pool
  | post kept | clear kept => exact ⟨_, Machine.poolAt?_setPool pool, kept⟩
  | resync | pass | reject | settle | hold => exact ⟨p, pool, .refl p⟩
  | aside _ aside => exact aside.pool

/-- So it is all along a run. -/
theorem RxAt.kept {T : RxTrack} {m : Machine} {x : RxStage} {g : Hands} (h : RxAt T x g m)
    {p : BufferPool} (pool : T.origin.2.poolAt? T.place = some p) :
    ∃ p', m.poolAt? T.place = some p' ∧ p.Kept p' := by
  refine Machine.inv_of_steps (fun c => ∃ p', c.2.poolAt? T.place = some p' ∧ p.Kept p')
    (fun c c' step before => ?_) h.run ⟨p, pool, .refl p⟩
  obtain ⟨p₁, pool₁, kept₁⟩ := before
  obtain ⟨source, -, change⟩ := step
  obtain rfl := Option.some.inj (source.pool.symm.trans pool₁)
  obtain ⟨q, pool', kept⟩ := change.kept source.pool
  exact ⟨q, pool', kept₁.trans kept⟩

/-- **A start is not refused otherwise**, and then every usable slot is filled. -/
theorem RxAt.startRx_of_enough {T : RxTrack} {n : Nat} {m : Machine} {r : RxRing} {p : BufferPool}
    (h : RxAt T .plain { filled := n } m) (allowed : T.switches) (rx : m.rx = some r)
    (pool : m.poolAt? T.place = some p)
    (enough : r.capacity ≤ p.capacity - m.toScene.out.length) : m.startRx.1 = .ok () := by
  obtain ⟨q, p', bs, guard⟩ := h.guarded
  obtain rfl : q = r := Option.some.inj (guard.rx.symm.trans rx)
  obtain rfl : p' = p := Option.some.inj (guard.pool.symm.trans pool)
  obtain ⟨batch, p₂, acquired, -, -, length⟩ :=
    Machine.acquireMany_before_start rx (guard.place ▸ pool) guard.between
  rw [Nat.min_eq_left enough] at length
  have ready := (RxAt.acquireMany (g := {}) (h.switchOff allowed).recyclePosted q.capacity).2
  rw [← guard.place, acquired] at ready
  have fits : batch.length ≤ T.size.capacity := by
    rw [← guard.size]
    exact length.le
  obtain ⟨ok, -⟩ := ready.completeStart q.capacity fits allowed
  unfold Machine.startRx
  rw [rx, Option.map_some]
  dsimp only
  rw [acquired]
  dsimp only
  rw [if_neg (Nat.not_lt.mpr length.ge), guard.place]
  rw [guard.place] at ok
  exact ok

end DescriptorRings
