import DescriptorRings.Machine.Engine
import DescriptorRings.Proofs.Machine.Moments
import DescriptorRings.Proofs.Receive.Pool

/-!
# Moving the buffers of a pool

An operation on a pool of the machine first asks whether the buffer is in the right state and then
changes the pool.  Where the answer is known, the operation is the change: each lemma here says what
an operation comes to in that case, as the machine with another pool put in the same place
(`setPool`).  No event is entered, so nothing happens in between that anybody could see.

A pool that a receive ring draws from is never taken down (`reapPool_eq`), whatever frames and
handles come and go.
-/

namespace DescriptorRings

namespace Machine

variable {m : Machine} {place : Nat} {p q : BufferPool} {b : BufferId} {s : BufferState}

/-! ## Another pool in the same place -/

/-- Puts a pool in the place of the one that was there. -/
def setPool (m : Machine) (place : Nat) (p : BufferPool) : Machine :=
  m.modifyPool place fun _ => p

/-- Puts a receive ring in the place of the one that was there. -/
def setRx (m : Machine) (r : RxRing) : Machine := { m with rx := some r }

theorem modifyRx_eq_setRx {r : RxRing} (rx : m.rx = some r) (f : RxRing → RxRing) :
    m.modifyRx f = m.setRx (f r) := by
  rw [modifyRx, rx, Option.map_some, setRx]

theorem modifyPool_eq_setPool (pool : m.poolAt? place = some p) (f : BufferPool → BufferPool) :
    m.modifyPool place f = m.setPool place (f p) := by
  have same : (m.pools.modify place fun e => { e with pool := f e.pool }) =
      m.pools.modify place fun e => { e with pool := f p } := by
    refine Array.ext_getElem? fun i => ?_
    rw [Array.getElem?_modify, Array.getElem?_modify]
    split
    · rename_i here
      subst here
      unfold poolAt? at pool
      obtain ⟨e, he, rfl⟩ := Option.map_eq_some_iff.mp pool
      rw [he]
      rfl
    · rfl
  rw [modifyPool, same]
  rfl

theorem poolAt?_setPool (pool : m.poolAt? place = some q) :
    (m.setPool place p).poolAt? place = some p := by
  unfold poolAt? at pool
  obtain ⟨e, he, -⟩ := Option.map_eq_some_iff.mp pool
  show ((m.pools.modify place _)[place]?).map PoolEntry.pool = some p
  rw [Array.getElem?_modify, if_pos rfl, he]
  rfl

theorem poolAt?_record (m : Machine) (e : Event) (place : Nat) :
    (m.record e).poolAt? place = m.poolAt? place := by
  have pools : (m.record e).pools = m.pools := by rw [toScene_record]
  rw [poolAt?, pools, poolAt?]

theorem setPool_self (pool : m.poolAt? place = some p) : m.setPool place p = m := by
  have same : (m.pools.modify place fun e => { e with pool := p }) = m.pools := by
    refine Array.ext_getElem? fun i => ?_
    rw [Array.getElem?_modify]
    split
    · rename_i here
      subst here
      unfold poolAt? at pool
      obtain ⟨e, he, rfl⟩ := Option.map_eq_some_iff.mp pool
      rw [he]
      rfl
    · rfl
  exact congrArg (fun ps : Array PoolEntry => ({ m with pools := ps } : Machine)) same

theorem setPool_setPool : (m.setPool place p).setPool place q = m.setPool place q := by
  have same : ((m.pools.modify place fun e => { e with pool := p }).modify place fun e =>
      { e with pool := q }) = m.pools.modify place fun e => { e with pool := q } := by
    refine Array.ext_getElem? fun i => ?_
    rw [Array.getElem?_modify, Array.getElem?_modify, Array.getElem?_modify]
    split
    · cases m.pools[i]? <;> rfl
    · rfl
  exact congrArg (fun ps : Array PoolEntry => ({ m with pools := ps } : Machine)) same

/-! ## Operations whose outcome is known -/

/-- A buffer in the state that an edge starts from takes the edge. -/
theorem alter_eq (pool : m.poolAt? place = some p) (state : p.stateOf? b = some s)
    (change : BufferPool → BufferPool) :
    m.alter place b s change = (.ok (), m.setPool place (change p)) := by
  have clear : m.obstacleAt? place b s = none := by
    rw [obstacleAt?, pool]
    exact BufferPool.obstacle?_eq_none_iff.mpr state
  rw [alter, clear]
  exact congrArg (Prod.mk _) (modifyPool_eq_setPool pool change)

theorem acquire_eq (pool : m.poolAt? place = some p) :
    m.acquire place = (p.free.head?, m.setPool place p.acquireNext) := by
  rw [acquire, pool, modifyPool_eq_setPool pool]
  rfl

theorem markPosted_eq (pool : m.poolAt? place = some p) (state : p.stateOf? b = some .acquired) :
    m.markPosted place b = (.ok (), m.setPool place (p.move b .posted)) :=
  alter_eq pool state _

theorem recycle_eq (pool : m.poolAt? place = some p) (state : p.stateOf? b = some .posted) :
    m.recycle place b = (.ok (), m.setPool place (p.move b .free)) :=
  alter_eq pool state _

theorem putBack_eq (pool : m.poolAt? place = some p) (state : p.stateOf? b = some .acquired) :
    m.putBack place b = (.ok (), m.setPool place (p.move b .free)) :=
  alter_eq pool state _

theorem markDelivered_eq (pool : m.poolAt? place = some p) (state : p.stateOf? b = some .posted) :
    m.markDelivered place b =
      (.ok ((p.deliver b).handleOf b), m.setPool place (p.deliver b)) := by
  rw [markDelivered, alter_eq pool state]
  dsimp only
  rw [poolAt?_setPool pool]
  rfl

theorem release_eq {h : ReturnHandle} (pool : m.poolAt? place = some p)
    (honoured : p.honours h = true) :
    m.release place h = (.ok (), m.setPool place (p.move h.buffer .free)) := by
  have clear : ((m.poolAt? place).any fun p => p.honours h) = true := by
    rw [pool]
    exact honoured
  rw [release, if_pos clear, modifyPool_eq_setPool pool]

/-- Posting writes the descriptor first, then moves the buffer, and then fills the slot. -/
theorem postBuffer_eq {r : RxRing} (rx : m.turn.rx = some r) (pool : m.turn.poolAt? place = some p)
    (state : p.stateOf? b = some .acquired) :
    m.postBuffer place b =
      (.ok (), ((m.turn.pokeRx r.tailSlot (p.base b) (UInt32.ofNat p.bufferSize)).setPool place
        (p.move b .posted)).setRx (r.post b)) := by
  set k := m.turn.pokeRx r.tailSlot (p.base b) (UInt32.ofNat p.bufferSize) with hk
  have known :
      ((m.poolAt? place).bind fun p => (p.addressOf? b).map fun a => (a, p.bufferSize)) =
        some (p.base b, p.bufferSize) := by
    rw [← poolAt?_turn, pool, Option.bind_some, BufferPool.addressOf?_eq_base state]
    rfl
  have slot : (m.rx.map RxRing.tailSlot).getD 0 = r.tailSlot := by
    rw [← rx_turn, rx]
    rfl
  have pool' : k.poolAt? place = some p := by
    have same : k.pools = m.turn.pools := by rw [hk, toScene_pokeRx]
    rw [poolAt?, same]
    exact pool
  have rx' : k.rx = some r := by
    rw [hk, toScene_pokeRx]
    exact rx
  have marked :
      (m.writeRx r.tailSlot (p.base b) (UInt32.ofNat p.bufferSize)).markPosted place b =
        (.ok (), k.setPool place (p.move b .posted)) :=
    markPosted_eq pool' state
  rw [postBuffer, known]
  dsimp only
  rw [slot, marked]
  dsimp only
  exact congrArg (Prod.mk _) (modifyRx_eq_setRx (m := k.setPool place (p.move b .posted)) rx' _)

/-- Taking posted buffers back, one after the other, comes to another pool in which they are free.
-/
theorem foldl_recycleOrReport {batch posted : List BufferId} {out : List ReturnHandle}
    (bs : List BufferId) (pool : m.poolAt? place = some p)
    (ledger : p.Ledger batch (bs ++ posted) out) :
    ∃ p', p.Kept p' ∧ p'.Ledger batch posted out ∧
      bs.foldl (fun m b => m.recycleOrReport place b) m = m.setPool place p' := by
  induction bs generalizing m p with
  | nil => exact ⟨p, .refl p, ledger, (setPool_self pool).symm⟩
  | cons b bs ih =>
    have state := (ledger.posted.mem_iff b).mp List.mem_cons_self
    have first : m.recycleOrReport place b = m.setPool place (p.move b .free) := by
      rw [recycleOrReport, recycle_eq pool state]
    obtain ⟨p', kept, ledger', rest⟩ := ih (poolAt?_setPool pool) ledger.recycle
    refine ⟨p', (p.kept_move b .free).trans kept, ledger', ?_⟩
    rw [List.foldl_cons, first, rest, setPool_setPool]

/-! ## Batches -/

/-- **A batch is as large as was asked for, unless it takes all the free buffers.** -/
theorem acquireMany_eq {posted : List BufferId} {out : List ReturnHandle}
    (pool : m.poolAt? place = some p) (ledger : p.Ledger [] posted out) (count : Nat) :
    ∃ batch p', m.acquireMany place count = (batch, m.setPool place p') ∧ p.Kept p' ∧
      p'.Ledger batch posted out ∧ batch.length ≤ count ∧ (batch.length < count → p'.free = []) := by
  have rounds (count : Nat) (b : Batch) (p : BufferPool) (pool : b.machine.poolAt? place = some p)
      (ledger : p.Ledger b.buffers posted out) :
      ∃ batch p', loop (Batch.next place) count b = ⟨batch, b.machine.setPool place p'⟩ ∧ p.Kept p' ∧
        p'.Ledger batch posted out ∧ batch.length ≤ b.buffers.length + count ∧
        (batch.length < b.buffers.length + count → p'.free = []) := by
    induction count generalizing b p with
    | zero =>
      refine ⟨b.buffers, p, ?_, .refl p, ledger, Nat.le_refl _, fun less => absurd less (lt_irrefl _)⟩
      rw [loop_zero, setPool_self pool]
    | succ count ih =>
      cases free : p.free with
      | nil =>
        have stop : Batch.next place b = (false, b) := by
          rw [Batch.next, acquire_eq pool, free, BufferPool.acquireNext_of_nil free,
            setPool_self pool]
          rfl
        refine ⟨b.buffers, p, ?_, .refl p, ledger, Nat.le_add_right _ _, fun _ => free⟩
        rw [loop_of_idle stop, setPool_self pool]
      | cons id rest =>
        have again : Batch.next place b =
            (true, ⟨id :: b.buffers, b.machine.setPool place p.acquireNext⟩) := by
          rw [Batch.next, acquire_eq pool, free]
          rfl
        obtain ⟨batch, p', all, kept, ledger', most, empty⟩ :=
          ih ⟨id :: b.buffers, b.machine.setPool place p.acquireNext⟩ p.acquireNext
            (poolAt?_setPool pool) (ledger.acquire free)
        rw [List.length_cons, Nat.add_right_comm] at most empty
        refine ⟨batch, p', ?_, p.kept_acquireNext.trans kept, ledger', most, empty⟩
        rw [loop_of_again (by rw [again]), again, all, setPool_setPool]
  obtain ⟨batch, p', all, kept, ledger', most, empty⟩ := rounds count ⟨[], m⟩ p pool ledger
  rw [List.length_nil, Nat.zero_add] at most empty
  refine ⟨batch.reverse, p', ?_, kept,
    ledger'.perm batch.reverse_perm.symm (.refl _) (.refl _), ?_, ?_⟩
  · rw [acquireMany, all]
  · rwa [List.length_reverse]
  · rwa [List.length_reverse]

/-- A batch that was acquired can be put back. -/
theorem putBackAll_eq {posted : List BufferId} {out : List ReturnHandle} (batch : List BufferId)
    (pool : m.poolAt? place = some p) (ledger : p.Ledger batch posted out) :
    ∃ p', forBuffers (fun b m => m.putBack place b) batch m = (.ok (), m.setPool place p') ∧
      p.Kept p' ∧ p'.Ledger [] posted out := by
  induction batch generalizing m p with
  | nil => exact ⟨p, by rw [forBuffers, setPool_self pool], .refl p, ledger⟩
  | cons b batch ih =>
    have state := (ledger.acquired.mem_iff b).mp List.mem_cons_self
    obtain ⟨p', rest, kept, ledger'⟩ := ih (poolAt?_setPool pool) ledger.putBack
    refine ⟨p', ?_, (p.kept_move b .free).trans kept, ledger'⟩
    rw [forBuffers, putBack_eq pool state]
    dsimp only
    rw [rest, setPool_setPool]

/-- **Taking all posted buffers back empties the ring**, and nobody else is concerned. -/
theorem recyclePosted_eq {r : RxRing} {out : List ReturnHandle} (rx : m.rx = some r)
    (pool : m.poolAt? r.pool = some p) (ledger : p.Ledger [] r.held out) :
    ∃ p', m.recyclePosted = ((m.setPool r.pool p').setRx r.clear).giveIf (!r.held.isEmpty)
      (.rxRecycled r.held.length) ∧ p.Kept p' ∧ p'.Ledger [] [] out := by
  rw [← List.append_nil r.held] at ledger
  obtain ⟨p', kept, ledger', emptied⟩ := foldl_recycleOrReport r.held pool ledger
  refine ⟨p', ?_, kept, ledger'⟩
  unfold recyclePosted
  rw [rx, Option.map_some]
  dsimp only
  rw [emptied, modifyRx_eq_setRx (m := m.setPool r.pool p') rx]

/-! ## Taking a pool down -/

/-- The pools are the same if only their entries change. -/
theorem poolAt?_entries (m : Machine) {f : PoolEntry → PoolEntry} (same : ∀ e, (f e).pool = e.pool)
    (other place : Nat) :
    poolAt? { m with pools := m.pools.modify other f } place = m.poolAt? place := by
  have mapped := congrArg (fun ps : Array BufferPool => ps[place]?)
    (BufferPool.map_modify m.pools other same)
  simpa [poolAt?] using mapped

section Keeps

variable {P : Machine → Prop} (noted : ∀ k n, P k → P (k.give n)) (freed : ∀ k a, P k → P (k.free a))
  (buried : ∀ (k : Machine) place, P k →
    P { k with pools := k.pools.modify place fun e => { e with live := false } })

include noted freed buried

/-- **Taking a pool down** is to give a notice, to give blocks back, and to enter that they are
gone. -/
theorem keeps_reapPool (h : P m) (place : Nat) : P (m.reapPool place) := by
  have freeAll (as : List BusAddress) (k : Machine) (hk : P k) : P (k.freeAll as) := by
    induction as generalizing k with
    | nil => exact hk
    | cons a as ih => exact ih _ (freed k a hk)
  unfold reapPool
  split
  · exact h
  · split
    · refine buried _ place (freeAll _ _ ?_)
      unfold giveIf
      split
      · exact noted m _ h
      · exact h
    · exact h

/-- Dropping the reference to a pool may take it down. -/
theorem keeps_dropPool (unlisted : ∀ (k : Machine) place, P k →
      P { k with pools := k.pools.modify place fun e => { e with listed := false } }) (h : P m)
    (place : Nat) : P (m.dropPool place) :=
  keeps_reapPool noted freed buried (unlisted m place h) place

/-- Taking away the rings may take the pool down that the receive ring drew from. -/
theorem keeps_dropRings
    (gone : P { m with engine := none, tx := none, rx := none, arbiter := none }) : P m.dropRings := by
  unfold dropRings
  dsimp only
  split
  · exact keeps_reapPool noted freed buried gone _
  · exact gone

end Keeps

/-- **A pool that a ring draws from is not taken down.** -/
theorem reapPool_eq {r : RxRing} (rx : m.rx = some r) (draws : r.pool = place) :
    m.reapPool place = m := by
  have refers : m.refersTo place = true := by
    simp [Scene.refersTo, Scene.atWork, Assembly.refersTo, rx, draws]
  unfold reapPool
  rw [refers]
  cases m.pools[place]? with
  | none => rfl
  | some e => simp

end Machine

end DescriptorRings
