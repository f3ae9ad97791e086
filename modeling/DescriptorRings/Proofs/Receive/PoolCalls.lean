import DescriptorRings.Proofs.Machine.Grants
import DescriptorRings.Proofs.Machine.Pools

/-!
# A pool under all its calls

Whoever holds a pool may call it in any order and with any arguments: with a buffer in the wrong
state, with the number of a buffer that the pool does not have, with a handle that was never issued.
This file follows a pool through such a series of calls (`Machine.callAll`).

Two things are kept apart.  What a call *would* move is asked of the pool before the call
(`PoolCall.target?`); what the call does is then known.  If there is a buffer to move, the call
succeeds and takes that buffer along the edge of the call, and no other (`Machine.call_of_target`,
`BufferPool.takes_after`).  If there is none, the call fails and the pool is what it was
(`Machine.call_of_none`).

The list of free buffers says again what the states of the buffers say already.  That the two agree
is the invariant of a pool (`BufferPool.Lists .free`); it is what lets a call take the first of the
list without looking at its state.
-/

namespace DescriptorRings

open List

/-- A call to a pool. -/
inductive PoolCall where
  /-- Take a free buffer. -/
  | acquire
  /-- Record that a buffer was written into a descriptor. -/
  | markPosted (b : BufferId)
  /-- Hand a buffer to the upper layer. -/
  | markDelivered (b : BufferId)
  /-- Take back a buffer that the adapter no longer refers to. -/
  | recycle (b : BufferId)
  /-- Take back a buffer that was never posted. -/
  | putBack (b : BufferId)
  /-- Take back the buffer of a handle. -/
  | release (h : ReturnHandle)
  deriving DecidableEq, Repr

/-- What a pool answers to a call. -/
inductive PoolAnswer where
  /-- The buffer that was taken. -/
  | acquired (b : BufferId)
  /-- There is no free buffer. -/
  | exhausted
  /-- The handle of the delivery. -/
  | handed (h : ReturnHandle)
  /-- The buffer was moved. -/
  | done
  /-- The buffer was not moved. -/
  | refused (cause : Refusal)
  deriving DecidableEq, Repr

namespace PoolAnswer

/-- The answer to a call that takes a buffer if there is one. -/
def ofNext? : Option BufferId → PoolAnswer
  | some b => .acquired b
  | none => .exhausted

/-- The answer to a call that moves a buffer. -/
def ofUnit : Except Refusal Unit → PoolAnswer
  | .ok () => .done
  | .error cause => .refused cause

/-- The answer to a call that delivers a buffer. -/
def ofHandle : Except Refusal ReturnHandle → PoolAnswer
  | .ok h => .handed h
  | .error cause => .refused cause

/-- Whether the call failed. -/
def failed : PoolAnswer → Bool
  | .exhausted | .refused _ => true
  | _ => false

end PoolAnswer

namespace Machine

/-- Calls the pool at a place. -/
def call (m : Machine) (place : Nat) : PoolCall → PoolAnswer × Machine
  | .acquire => (m.acquire place).map .ofNext? id
  | .markPosted b => (m.markPosted place b).map .ofUnit id
  | .markDelivered b => (m.markDelivered place b).map .ofHandle id
  | .recycle b => (m.recycle place b).map .ofUnit id
  | .putBack b => (m.putBack place b).map .ofUnit id
  | .release h => (m.release place h).map .ofUnit id

/-- Calls the pool at a place again and again, and keeps what it answers. -/
def callAll (m : Machine) (place : Nat) : List PoolCall → List (PoolCall × PoolAnswer) × Machine
  | [] => ([], m)
  | c :: cs =>
    let (answer, m) := m.call place c
    let (answers, m) := m.callAll place cs
    ((c, answer) :: answers, m)

theorem callAll_append (m : Machine) (place : Nat) (cs ds : List PoolCall) :
    m.callAll place (cs ++ ds) =
      ((m.callAll place cs).1 ++ ((m.callAll place cs).2.callAll place ds).1,
        ((m.callAll place cs).2.callAll place ds).2) := by
  induction cs generalizing m with
  | nil => rfl
  | cons c cs ih => simp only [cons_append, callAll, ih]

end Machine

/-! ## What a call would move -/

namespace PoolCall

/-- The edge that a call takes its buffer along. -/
def edge : PoolCall → BufferState × BufferState
  | .acquire => (.free, .acquired)
  | .markPosted _ => (.acquired, .posted)
  | .markDelivered _ => (.posted, .delivered)
  | .recycle _ => (.posted, .free)
  | .putBack _ => (.acquired, .free)
  | .release _ => (.delivered, .free)

/-- The buffer that a call names, or that a call without a name finds on the list. -/
def named? (p : BufferPool) : PoolCall → Option BufferId
  | .acquire => p.free.head?
  | .markPosted b | .markDelivered b | .recycle b | .putBack b => some b
  | .release h => if p.handleOf h.buffer = h then some h.buffer else none

/-- The buffer that a call moves: the one that it names, if that is where the edge starts. -/
def target? (p : BufferPool) (c : PoolCall) : Option BufferId :=
  (c.named? p).filter fun b => p.stateOf? b = some c.edge.1

/-- The answer to a call that moves a buffer. -/
def success (p : BufferPool) (b : BufferId) : PoolCall → PoolAnswer
  | .acquire => .acquired b
  | .markDelivered _ => .handed ((p.deliver b).handleOf b)
  | _ => .done

/-- The answer to a call that moves none. -/
def failure : PoolCall → PoolAnswer
  | .acquire => .exhausted
  | .release _ => .refused .invalidHandle
  | _ => .refused .badState

variable {p : BufferPool} {c : PoolCall} {b : BufferId}

@[simp] theorem failed_success : (c.success p b).failed = false := by
  cases c <;> rfl

@[simp] theorem failed_failure : c.failure.failed = true := by
  cases c <;> rfl

theorem target?_eq_some_iff :
    c.target? p = some b ↔ c.named? p = some b ∧ p.stateOf? b = some c.edge.1 := by
  rw [target?, Option.filter_eq_some_iff, decide_eq_true_iff]

end PoolCall

namespace BufferPool

variable {p p' : BufferPool} {b : BufferId} {c : PoolCall} {s t : BufferState}

/-- The pool after a call that moves a buffer. -/
def after (p : BufferPool) (b : BufferId) : PoolCall → BufferPool
  | .acquire => p.acquireNext
  | .markDelivered _ => p.deliver b
  | c => p.move b c.edge.2

end BufferPool

/-! ## What a call does -/

namespace Machine

variable {m : Machine} {place : Nat} {p : BufferPool} {b : BufferId} {c : PoolCall}
  {s : BufferState}

@[simp] theorem pools_give (m : Machine) (n : Notice) : (m.give n).pools = m.pools := by
  obtain ⟨j, scene⟩ := m.exists_toScene_give n
  rw [scene]

/-- A buffer that is not in the state that an edge starts from does not take the edge. -/
theorem alter_of_ne (pool : m.poolAt? place = some p) (state : p.stateOf? b ≠ some s)
    (change : BufferPool → BufferPool) :
    (m.alter place b s change).1 = .error .badState ∧
      (m.alter place b s change).2.pools = m.pools := by
  have blocked : m.obstacleAt? place b s ≠ none := by
    rw [obstacleAt?, pool]
    exact fun none => state (BufferPool.obstacle?_eq_none_iff.mp none)
  unfold alter
  split
  · contradiction
  · exact ⟨rfl, pools_give m _⟩
  · exact ⟨rfl, rfl⟩

/-- **A call with a buffer to move moves it.** -/
theorem call_of_target (pool : m.poolAt? place = some p) (target : c.target? p = some b) :
    m.call place c = (c.success p b, m.setPool place (p.after b c)) := by
  obtain ⟨name, state⟩ := PoolCall.target?_eq_some_iff.mp target
  cases c with
  | acquire =>
    have next : p.free.head? = some b := name
    rw [call, acquire_eq pool, next]
    rfl
  | markPosted d =>
    obtain rfl := Option.some.inj name
    rw [call, markPosted_eq pool state]
    rfl
  | markDelivered d =>
    obtain rfl := Option.some.inj name
    rw [call, markDelivered_eq pool state]
    rfl
  | recycle d =>
    obtain rfl := Option.some.inj name
    rw [call, recycle_eq pool state]
    rfl
  | putBack d =>
    obtain rfl := Option.some.inj name
    rw [call, putBack_eq pool state]
    rfl
  | release h =>
    obtain ⟨latest, same⟩ := Option.ite_none_right_eq_some.mp name
    obtain rfl := Option.some.inj same
    rw [call, release_eq pool (BufferPool.honours_iff.mpr ⟨state, latest⟩)]
    rfl

/-- **A call without one fails, and no pool of the machine is touched.** -/
theorem call_of_none (free : p.Lists .free p.free) (pool : m.poolAt? place = some p)
    (target : c.target? p = none) :
    (m.call place c).1 = c.failure ∧ (m.call place c).2.pools = m.pools := by
  have state (b : BufferId) (name : c.named? p = some b) : p.stateOf? b ≠ some c.edge.1 := by
    intro state
    have some := PoolCall.target?_eq_some_iff.mpr ⟨name, state⟩
    rw [target] at some
    exact absurd some (Option.some_ne_none b).symm
  cases c with
  | acquire =>
    have none : p.free = [] := by
      cases list : p.free with
      | nil => rfl
      | cons b rest =>
        have listed : b ∈ p.free := by rw [list]; exact mem_cons_self
        exact absurd ((free.mem_iff b).mp listed) (state b (congrArg head? list))
    rw [call, acquire_eq pool, BufferPool.acquireNext_of_nil none, setPool_self pool, none]
    exact ⟨rfl, rfl⟩
  | markPosted b =>
    obtain ⟨answer, same⟩ := alter_of_ne pool (state b rfl) fun p => p.move b .posted
    exact ⟨congrArg PoolAnswer.ofUnit answer, same⟩
  | markDelivered b =>
    obtain ⟨answer, same⟩ := alter_of_ne (s := .posted) pool (state b rfl) fun p => p.deliver b
    have refused : m.markDelivered place b =
        (.error .badState, (m.alter place b .posted fun p => p.deliver b).2) := by
      rw [markDelivered]
      generalize m.alter place b .posted (fun p => p.deliver b) = outcome at answer
      obtain ⟨e, k⟩ := outcome
      obtain rfl : e = .error .badState := answer
      rfl
    rw [call, refused]
    exact ⟨rfl, same⟩
  | recycle b =>
    obtain ⟨answer, same⟩ := alter_of_ne pool (state b rfl) fun p => p.move b .free
    exact ⟨congrArg PoolAnswer.ofUnit answer, same⟩
  | putBack b =>
    obtain ⟨answer, same⟩ := alter_of_ne pool (state b rfl) fun p => p.move b .free
    exact ⟨congrArg PoolAnswer.ofUnit answer, same⟩
  | release h =>
    have dishonoured : ¬((m.poolAt? place).any fun p => p.honours h) = true := by
      rw [pool]
      intro honoured
      obtain ⟨delivered, latest⟩ := BufferPool.honours_iff.mp honoured
      exact state h.buffer (if_pos latest) delivered
    rw [call, release, if_neg dishonoured]
    exact ⟨rfl, rfl⟩

theorem poolAt?_congr {m' : Machine} (same : m'.pools = m.pools) :
    m'.poolAt? place = m.poolAt? place := by
  rw [poolAt?, poolAt?, same]

end Machine

/-! ## What a call keeps -/

/-- A buffer that takes an edge into a state.  A delivery begins a new generation. -/
def Buffer.enter (x : Buffer) (t : BufferState) : Buffer :=
  { x with state := t, generation := if t = .delivered then x.generation + 1 else x.generation }

namespace BufferPool

variable {p p' : BufferPool} {b : BufferId} {c : PoolCall} {s t : BufferState} {count : Nat}

/-- One buffer takes an edge; no other buffer changes in any way. -/
structure Takes (p p' : BufferPool) (b : BufferId) (s t : BufferState) : Prop where
  /-- The buffer was where the edge starts, and is where it ends. -/
  moved : ∃ x, p.buffers[b.index]? = some x ∧ x.state = s ∧
    p'.buffers[b.index]? = some (x.enter t)
  /-- The others are what they were. -/
  others : ∀ i, i ≠ b.index → p'.buffers[i]? = p.buffers[i]?
  /-- The pool is the same pool. -/
  kept : p.Kept p'

/-- The books of a pool agree with one another. -/
structure InOrder (p : BufferPool) (count : Nat) : Prop where
  /-- No buffer is listed twice as free. -/
  nodup : p.free.Nodup
  /-- Just the free buffers are listed. -/
  mem_free : ∀ b, b ∈ p.free ↔ p.stateOf? b = some .free
  /-- The table of the buffers keeps its length. -/
  capacity : p.capacity = count
  /-- All buffers are counted. -/
  total : p.tally.total = p.capacity
  /-- As many are counted free as are listed. -/
  free : p.tally.free = p.available

theorem inOrder_of_lists (h : p.Lists .free p.free) (capacity : p.capacity = count)
    (named : count ≤ Config.maxBuffers) : p.InOrder count :=
  ⟨h.nodup, h.mem_iff, capacity, p.total_tally, h.number_tally (capacity.le.trans named)⟩

theorem takes_move (state : p.stateOf? b = some s) (ne : t ≠ .delivered) :
    p.Takes (p.move b t) b s t := by
  obtain ⟨x, here, has⟩ := Option.map_eq_some_iff.mp state
  refine ⟨⟨x, here, has, ?_⟩, fun i away => ?_, p.kept_move b t⟩
  · rw [move, Array.getElem?_modify, if_pos rfl, here, Buffer.enter, if_neg ne]
    rfl
  · rw [move, Array.getElem?_modify, if_neg away.symm]

theorem takes_deliver (state : p.stateOf? b = some s) : p.Takes (p.deliver b) b s .delivered := by
  obtain ⟨x, here, has⟩ := Option.map_eq_some_iff.mp state
  refine ⟨⟨x, here, has, ?_⟩, fun i away => ?_, p.kept_deliver b⟩
  · rw [deliver, Array.getElem?_modify, if_pos rfl, here, Buffer.enter, if_pos rfl]
    rfl
  · rw [deliver, Array.getElem?_modify, if_neg away.symm]

/-- **A call takes its buffer along its edge.** -/
theorem takes_after (target : c.target? p = some b) :
    p.Takes (p.after b c) b c.edge.1 c.edge.2 := by
  obtain ⟨name, state⟩ := PoolCall.target?_eq_some_iff.mp target
  cases c with
  | acquire =>
    obtain ⟨rest, list⟩ := head?_eq_some_iff.mp name
    have takes := takes_move state (t := .acquired) (by decide)
    rw [after, acquireNext_eq list]
    exact ⟨takes.moved, takes.others, takes.kept.id, takes.kept.layout, takes.kept.capacity,
      takes.kept.base⟩
  | markDelivered _ => exact takes_deliver state
  | markPosted _ | recycle _ | putBack _ | release _ =>
    exact takes_move state BufferState.noConfusion

/-- **The list of free buffers stays right**: a call takes off what it acquires, and puts back what
it frees. -/
theorem lists_after (free : p.Lists .free p.free) (target : c.target? p = some b) :
    (p.after b c).Lists .free (p.after b c).free := by
  obtain ⟨name, state⟩ := PoolCall.target?_eq_some_iff.mp target
  cases c with
  | acquire =>
    obtain ⟨rest, list⟩ := head?_eq_some_iff.mp name
    have moves := moves_acquireNext list state
    have rest' : p.acquireNext.free = rest := by rw [acquireNext_eq list]
    rw [list] at free
    rw [after, rest']
    exact free.leave moves (by decide)
  | markPosted _ =>
    exact free.stay (moves_move state .posted) BufferState.noConfusion BufferState.noConfusion
  | markDelivered _ =>
    exact free.stay (moves_deliver state) BufferState.noConfusion BufferState.noConfusion
  | recycle _ | putBack _ | release _ =>
    exact free.join (moves_move state .free) BufferState.noConfusion

end BufferPool

namespace Machine

variable {m m₀ : Machine} {place count size align : Nat} {p : BufferPool}

/-- **What every call keeps, a series of calls keeps**, whether the calls succeed or fail. -/
theorem callAll_keeps {P : List (PoolCall × PoolAnswer) → BufferPool → Prop}
    (moved : ∀ {hs p c b}, P hs p → c.target? p = some b →
      P (hs ++ [(c, c.success p b)]) (p.after b c))
    (blocked : ∀ {hs p c}, P hs p → c.target? p = none → P (hs ++ [(c, c.failure)]) p)
    (pool : m.poolAt? place = some p) (free : p.Lists .free p.free) (start : P [] p)
    (cs : List PoolCall) :
    ∃ p', (m.callAll place cs).2.poolAt? place = some p' ∧ p'.Lists .free p'.free ∧
      P (m.callAll place cs).1 p' := by
  induction cs using List.reverseRecOn with
  | nil => exact ⟨p, pool, free, start⟩
  | append_singleton cs c ih =>
    obtain ⟨q, pool, free, so⟩ := ih
    rw [callAll_append]
    set k := (m.callAll place cs).2
    cases target : c.target? q with
    | some b =>
      rw [callAll, call_of_target pool target]
      exact ⟨q.after b c, poolAt?_setPool pool, BufferPool.lists_after free target, moved so target⟩
    | none =>
      obtain ⟨answer, same⟩ := call_of_none free pool target
      rw [callAll, show k.call place c = (c.failure, (k.call place c).2) from Prod.ext answer rfl]
      exact ⟨q, (poolAt?_congr same).trans pool, free, blocked so target⟩

/-- A call to the pool at a place moves one buffer, or fails and moves none. -/
structure AllOrNothing (m : Machine) (place : Nat) (p : BufferPool) (c : PoolCall) : Prop where
  /-- The call fails just when there is no buffer for it to move. -/
  failed_iff : (m.call place c).1.failed = true ↔ c.target? p = none
  /-- A call that fails says why, and leaves every pool exactly as it was. -/
  blocked : (m.call place c).1.failed = true →
    (m.call place c).1 = c.failure ∧ (m.call place c).2.pools = m.pools
  /-- A call that succeeds takes the one buffer along its edge. -/
  moved : ∀ b, c.target? p = some b → (m.call place c).1 = c.success p b ∧
    ∃ p', (m.call place c).2.poolAt? place = some p' ∧ p.Takes p' b c.edge.1 c.edge.2

theorem allOrNothing (free : p.Lists .free p.free) (pool : m.poolAt? place = some p)
    (c : PoolCall) : m.AllOrNothing place p c := by
  cases target : c.target? p with
  | none =>
    obtain ⟨answer, same⟩ := call_of_none free pool target
    refine ⟨⟨fun _ => target, fun _ => ?_⟩, fun _ => ⟨answer, same⟩, fun b here => ?_⟩
    · rw [answer, PoolCall.failed_failure]
    · exact absurd (target.symm.trans here) (Option.some_ne_none b).symm
  | some b =>
    have moves := call_of_target pool target
    have succeeds : (m.call place c).1.failed = false := by rw [moves, PoolCall.failed_success]
    refine ⟨⟨fun failed => ?_, fun none => ?_⟩, fun failed => ?_, fun d here => ?_⟩
    · exact absurd (succeeds.symm.trans failed) Bool.false_ne_true
    · exact absurd (target.symm.trans none) (Option.some_ne_none b)
    · exact absurd (succeeds.symm.trans failed) Bool.false_ne_true
    · obtain rfl := Option.some.inj (target.symm.trans here)
      rw [moves]
      exact ⟨rfl, _, poolAt?_setPool pool, BufferPool.takes_after target⟩

/-- **A pool keeps its books under every series of calls**, with whatever arguments.  After the
series the books are in order; and the next call, whatever it is, moves one buffer along one edge
and leaves the others alone, or fails and leaves the pool exactly as it was. -/
theorem pool_keeps_its_books (made : m.createPool count size align = (.ok place, m₀))
    (cs : List PoolCall) :
    ∃ p, (m₀.callAll place cs).2.poolAt? place = some p ∧ p.InOrder count ∧
      ∀ c, (m₀.callAll place cs).2.AllOrNothing place p c := by
  obtain ⟨id, layout, addresses, pool, length, named⟩ := poolAt?_createPool made
  have new := BufferPool.ledger_ofAddresses id layout (length.le.trans named)
  have size : (BufferPool.ofAddresses id layout addresses).capacity = count := by
    show (addresses.map _).toArray.size = count
    rw [List.size_toArray, length_map, length]
  obtain ⟨p, pool, free, capacity⟩ := callAll_keeps (P := fun _ p => p.capacity = count)
    (fun size target => (BufferPool.takes_after target).kept.capacity.trans size)
    (fun size _ => size) pool new.free size cs
  exact ⟨p, pool, BufferPool.inOrder_of_lists free capacity named, allOrNothing free pool⟩

/-- A pool of two buffers is called in and out of turn: with a buffer that it does not have, with a
buffer in another state, under a handle that was never issued, and once too often. -/
theorem pool_keeps_its_books_misused :
    ∃ (m₀ : Machine) (cs : List PoolCall), ({} : Machine).createPool 2 2048 64 = (.ok 0, m₀) ∧
      (m₀.callAll 0 cs).1 =
        [(.acquire, .acquired ⟨0⟩), (.putBack ⟨7⟩, .refused .badState), (.markPosted ⟨0⟩, .done),
          (.markPosted ⟨0⟩, .refused .badState), (.markDelivered ⟨0⟩, .handed ⟨1, ⟨0⟩, 1⟩),
          (.release ⟨1, ⟨0⟩, 2⟩, .refused .invalidHandle), (.release ⟨1, ⟨0⟩, 1⟩, .done),
          (.acquire, .acquired ⟨0⟩), (.acquire, .acquired ⟨1⟩), (.acquire, .exhausted)] ∧
      ∃ p, (m₀.callAll 0 cs).2.poolAt? 0 = some p ∧ p.InOrder 2 ∧
        ∀ c, (m₀.callAll 0 cs).2.AllOrNothing 0 p c := by
  have made : ({} : Machine).createPool 2 2048 64 =
      (.ok 0, (({} : Machine).createPool 2 2048 64).2) := rfl
  exact ⟨_, [.acquire, .putBack ⟨7⟩, .markPosted ⟨0⟩, .markPosted ⟨0⟩, .markDelivered ⟨0⟩,
    .release ⟨1, ⟨0⟩, 2⟩, .release ⟨1, ⟨0⟩, 1⟩, .acquire, .acquire, .acquire], made,
    by decide +kernel, pool_keeps_its_books made _⟩

end Machine

end DescriptorRings
