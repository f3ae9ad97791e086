import DescriptorRings.Proofs.Receive.PoolCalls

/-!
# Which handles a pool honours

A handle may come back as any word at all: twice, late, or made up.  The pool looks at the state and
the generation of one buffer to decide whether to honour it.  Here the decision is compared with the
history of the pool, that is, with the calls so far and what was answered to them.

The history gives each buffer the list of the handles that were issued for it (`issuedFor`), and the
states that it was moved to (`pathOf`).  A pool keeps just enough of that (`BufferPool.Accounts`):
the generation of a buffer counts how many handles were issued for it, modulo the width of the
count, and the state is the end of the last edge.  So the handle that the pool would honour is
always the latest that was issued for a buffer that is out.

An earlier handle differs from the latest in its generation, unless the count has gone all the way
round in between.
-/

namespace DescriptorRings

open List

/-! ## Histories -/

/-- The buffer that a call has moved, by its answer. -/
def moved? : PoolCall × PoolAnswer → Option BufferId
  | (.acquire, .acquired b) => some b
  | (.markPosted b, .done) | (.recycle b, .done) | (.putBack b, .done) => some b
  | (.markDelivered b, .handed _) => some b
  | (.release h, .done) => some h.buffer
  | _ => none

/-- The handle that a call has issued for a buffer. -/
def issue? (b : BufferId) : PoolCall × PoolAnswer → Option ReturnHandle
  | (.markDelivered d, .handed h) => if d = b then some h else none
  | _ => none

/-- The handles that were issued for a buffer, in order. -/
def issuedFor (b : BufferId) (hs : List (PoolCall × PoolAnswer)) : List ReturnHandle :=
  hs.filterMap (issue? b)

/-- The states that a buffer was moved to, in order. -/
def pathOf (b : BufferId) (hs : List (PoolCall × PoolAnswer)) : List BufferState :=
  (hs.filter fun e => moved? e = some b).map fun e => e.1.edge.2

variable {p : BufferPool} {b : BufferId} {c : PoolCall} {h : ReturnHandle}
  {hs before later : List (PoolCall × PoolAnswer)}

theorem issuedFor_append (b : BufferId) (hs ks : List (PoolCall × PoolAnswer)) :
    issuedFor b (hs ++ ks) = issuedFor b hs ++ issuedFor b ks := filterMap_append

theorem pathOf_append (b : BufferId) (hs ks : List (PoolCall × PoolAnswer)) :
    pathOf b (hs ++ ks) = pathOf b hs ++ pathOf b ks := by
  rw [pathOf, filter_append, map_append, pathOf, pathOf]

theorem issuedFor_concat (b : BufferId) (hs : List (PoolCall × PoolAnswer))
    (e : PoolCall × PoolAnswer) :
    issuedFor b (hs ++ [e]) = issuedFor b hs ++ (issue? b e).toList := by
  rw [issuedFor_append, issuedFor, issuedFor, filterMap_cons]
  cases issue? b e <;> rfl

theorem pathOf_concat (b : BufferId) (hs : List (PoolCall × PoolAnswer))
    (e : PoolCall × PoolAnswer) :
    pathOf b (hs ++ [e]) =
      if moved? e = some b then pathOf b hs ++ [e.1.edge.2] else pathOf b hs := by
  rw [pathOf_append]
  by_cases moves : moved? e = some b
  · rw [if_pos moves]
    simp [pathOf, moves]
  · rw [if_neg moves]
    simp [pathOf, moves]

/-- Whoever moves a buffer to the upper layer issues a handle for it. -/
theorem issuedFor_ne_nil (out : .delivered ∈ pathOf b hs) : issuedFor b hs ≠ [] := by
  obtain ⟨⟨c, a⟩, entry, delivers⟩ := mem_map.mp out
  obtain ⟨here, moves⟩ := mem_filter.mp entry
  have moves := of_decide_eq_true moves
  have issues : ∃ h, issue? b (c, a) = some h := by
    cases c with
    | markDelivered d =>
      cases a with
      | handed h => exact ⟨h, if_pos (Option.some.inj moves)⟩
      | acquired _ | exhausted | done | refused _ => exact absurd moves nofun
    | acquire | markPosted _ | recycle _ | putBack _ | release _ => exact absurd delivers nofun
  obtain ⟨h, issues⟩ := issues
  exact ne_nil_of_mem (mem_filterMap.mpr ⟨_, here, issues⟩)

theorem moved?_failure : moved? (c, c.failure) = none := by
  cases c <;> rfl

theorem issue?_failure : issue? b (c, c.failure) = none := by
  cases c <;> rfl

theorem moved?_success (target : c.target? p = some b) : moved? (c, c.success p b) = some b := by
  have name := (PoolCall.target?_eq_some_iff.mp target).1
  cases c with
  | acquire => rfl
  | markPosted _ | markDelivered _ | recycle _ | putBack _ => exact name
  | release h =>
    obtain ⟨-, same⟩ := Option.ite_none_right_eq_some.mp name
    exact same

theorem issue?_success (target : c.target? p = some b) (d : BufferId) :
    issue? d (c, c.success p b) =
      if d = b ∧ c.edge.2 = .delivered then some ((p.deliver b).handleOf b) else none := by
  have name := (PoolCall.target?_eq_some_iff.mp target).1
  cases c with
  | markDelivered x =>
    obtain rfl := Option.some.inj name
    by_cases same : d = x
    · subst same
      rw [if_pos ⟨rfl, rfl⟩]
      exact if_pos rfl
    · rw [if_neg fun both => same both.1]
      exact if_neg fun eq => same eq.symm
  | acquire | markPosted _ | recycle _ | putBack _ | release _ =>
    exact (if_neg fun both => BufferState.noConfusion both.2).symm

/-! ## What a pool remembers of its history -/

namespace BufferPool

/-- The handles of the first deliveries of a buffer. -/
def handlesUpTo (id : UInt16) (b : BufferId) (n : Nat) : List ReturnHandle :=
  (range n).map fun k => ⟨id, b, UInt32.ofNat (k + 1)⟩

theorem handlesUpTo_succ (id : UInt16) (b : BufferId) (n : Nat) :
    handlesUpTo id b (n + 1) = handlesUpTo id b n ++ [⟨id, b, UInt32.ofNat (n + 1)⟩] := by
  rw [handlesUpTo, range_succ, map_append]
  rfl

theorem getElem?_handlesUpTo (id : UInt16) (b : BufferId) {k n : Nat} (h : k < n) :
    (handlesUpTo id b n)[k]? = some ⟨id, b, UInt32.ofNat (k + 1)⟩ := by
  rw [handlesUpTo, getElem?_map, getElem?_range h]
  rfl

/-- A pool agrees with its history. -/
structure Accounts (p : BufferPool) (hs : List (PoolCall × PoolAnswer)) : Prop where
  /-- The handles that were issued carry the pool, the buffer and one generation after another. -/
  issued : ∀ b, issuedFor b hs = handlesUpTo p.id b (issuedFor b hs).length
  /-- The generation counts them. -/
  generation : ∀ b x, p.buffers[b.index]? = some x →
    x.generation = UInt32.ofNat (issuedFor b hs).length
  /-- The state is the end of the last edge. -/
  state : ∀ b x, p.buffers[b.index]? = some x → x.state = (pathOf b hs).getLast?.getD .free

namespace Accounts

/-- A new pool has no history. -/
theorem new (id : UInt16) (layout : Layout) (addresses : List BusAddress) :
    (ofAddresses id layout addresses).Accounts [] := by
  have fresh (b : BufferId) (x : Buffer)
      (here : (ofAddresses id layout addresses).buffers[b.index]? = some x) :
      x.generation = 0 ∧ x.state = .free := by
    have here : (addresses.map fun a => ({ address := a } : Buffer))[b.index]? = some x := by
      rw [← here, ofAddresses, List.getElem?_toArray]
    obtain ⟨a, -, rfl⟩ := mem_map.mp (mem_of_getElem? here)
    exact ⟨rfl, rfl⟩
  exact ⟨fun _ => rfl, fun b x here => (fresh b x here).1, fun b x here => (fresh b x here).2⟩

/-- A call that fails adds nothing to the memory of any buffer. -/
theorem blocked (acc : p.Accounts hs) (c : PoolCall) : p.Accounts (hs ++ [(c, c.failure)]) := by
  have same (b : BufferId) : issuedFor b (hs ++ [(c, c.failure)]) = issuedFor b hs := by
    rw [issuedFor_concat, issue?_failure, Option.toList_none, append_nil]
  have path (b : BufferId) : pathOf b (hs ++ [(c, c.failure)]) = pathOf b hs := by
    rw [pathOf_concat, moved?_failure]
    exact if_neg (Option.some_ne_none b).symm
  refine ⟨fun b => ?_, fun b x here => ?_, fun b x here => ?_⟩
  · rw [same]
    exact acc.issued b
  · rw [same]
    exact acc.generation b x here
  · rw [path]
    exact acc.state b x here

/-- A call that moves a buffer adds to the memory of that buffer, and to no other. -/
theorem moved (acc : p.Accounts hs) (target : c.target? p = some b) :
    (p.after b c).Accounts (hs ++ [(c, c.success p b)]) := by
  have takes := takes_after target
  obtain ⟨x, here, -, there⟩ := takes.moved
  have handle : (p.deliver b).handleOf b =
      ⟨p.id, b, UInt32.ofNat ((issuedFor b hs).length + 1)⟩ := by
    rw [UInt32.ofNat_add, ← acc.generation b x here]
    simp only [handleOf, deliver, Array.getD_eq_getD_getElem?, Array.getElem?_modify, here]
    rfl
  have issues (d : BufferId) : issuedFor d (hs ++ [(c, c.success p b)]) =
      issuedFor d hs ++ if d = b ∧ c.edge.2 = .delivered then
        [⟨p.id, d, UInt32.ofNat ((issuedFor d hs).length + 1)⟩] else [] := by
    rw [issuedFor_concat, issue?_success target]
    split
    · rename_i both
      obtain ⟨rfl, -⟩ := both
      rw [handle]
      rfl
    · rfl
  have path (d : BufferId) : pathOf d (hs ++ [(c, c.success p b)]) =
      if b = d then pathOf d hs ++ [c.edge.2] else pathOf d hs := by
    rw [pathOf_concat, moved?_success target]
    simp only [Option.some.injEq]
  refine ⟨fun d => ?_, fun d y there' => ?_, fun d y there' => ?_⟩
  · rw [takes.kept.id, issues]
    split
    · rw [length_append, length_singleton, handlesUpTo_succ, ← acc.issued d]
    · rw [append_nil]
      exact acc.issued d
  · rw [issues]
    by_cases same : d = b
    · subst same
      obtain rfl := Option.some.inj (there.symm.trans there')
      have counted := acc.generation d x here
      by_cases delivers : c.edge.2 = .delivered
      · have next : (x.enter c.edge.2).generation = x.generation + 1 := if_pos delivers
        have both : d = d ∧ c.edge.2 = .delivered := ⟨rfl, delivers⟩
        rw [next, counted, if_pos both, length_append]
        exact (UInt32.ofNat_add _ _).symm
      · have still : (x.enter c.edge.2).generation = x.generation := if_neg delivers
        have other : ¬(d = d ∧ c.edge.2 = .delivered) := fun both => delivers both.2
        rw [still, counted, if_neg other, append_nil]
    · have away : d.index ≠ b.index := fun eq => same (BufferId.index_inj.mp eq)
      rw [if_neg fun both => same both.1, append_nil]
      exact acc.generation d y ((takes.others d.index away).symm.trans there')
  · rw [path]
    by_cases same : b = d
    · subst same
      obtain rfl := Option.some.inj (there.symm.trans there')
      rw [if_pos rfl, getLast?_concat]
      rfl
    · have away : d.index ≠ b.index := fun eq => same (BufferId.index_inj.mp eq.symm)
      rw [if_neg same]
      exact acc.state d y ((takes.others d.index away).symm.trans there')

/-- A buffer that is out was delivered last of all. -/
theorem getLast?_pathOf (acc : p.Accounts hs) (out : p.stateOf? b = some .delivered) :
    (pathOf b hs).getLast? = some .delivered := by
  obtain ⟨x, here, delivered⟩ := Option.map_eq_some_iff.mp out
  have state := acc.state b x here
  rw [delivered] at state
  cases last : (pathOf b hs).getLast? with
  | none =>
    rw [last] at state
    exact BufferState.noConfusion state
  | some s =>
    rw [last] at state
    exact congrArg some state.symm

/-- **The handle that a pool would honour is the latest that was issued.** -/
theorem latest (acc : p.Accounts hs) (out : p.stateOf? b = some .delivered) :
    (issuedFor b hs).getLast? = some (p.handleOf b) := by
  obtain ⟨x, here, -⟩ := Option.map_eq_some_iff.mp out
  have some := issuedFor_ne_nil (mem_of_getLast? (acc.getLast?_pathOf out))
  obtain ⟨n, length⟩ := Nat.exists_eq_succ_of_ne_zero (mt length_eq_zero_iff.mp some)
  have generation := acc.generation b x here
  rw [acc.issued b, length, handlesUpTo_succ, getLast?_concat]
  rw [length] at generation
  simp only [handleOf, Array.getD_eq_getD_getElem?, here, Option.getD_some, generation]

/-- **A handle that was used, or that a later one has replaced, is not honoured any more**, as long
as the generations have not gone all the way round. -/
theorem not_honours (acc : p.Accounts hs)
    (past : hs = before ++ (.markDelivered b, .handed h) :: later)
    (retired : (.release h, .done) ∈ later ∨ issuedFor b later ≠ [])
    (few : (issuedFor b later).length < UInt32.size) : ¬p.honours h = true := by
  intro honoured
  obtain ⟨out, latest⟩ := honours_iff.mp honoured
  have split : issuedFor b hs = issuedFor b before ++ h :: issuedFor b later := by
    rw [past, issuedFor_append]
    exact congrArg _ (filterMap_cons_some (if_pos rfl))
  set n := (issuedFor b before).length with hn
  set k := (issuedFor b later).length with hk
  have length : (issuedFor b hs).length = n + (k + 1) := by
    rw [split, length_append, length_cons]
  -- the handle itself, by its place among those that were issued
  have own : h = ⟨p.id, b, UInt32.ofNat (n + 1)⟩ := by
    have place : (issuedFor b hs)[n]? = some h := by
      rw [split, getElem?_append_right (Nat.le_refl n), Nat.sub_self, getElem?_cons_zero]
    rw [acc.issued b, getElem?_handlesUpTo p.id b (by omega)] at place
    exact (Option.some.inj place).symm
  have buffer : h.buffer = b := congrArg ReturnHandle.buffer own
  rw [buffer] at out latest
  by_cases replaced : issuedFor b later = []
  · -- the buffer came back, and has not gone out since
    have used := retired.resolve_right fun some => some replaced
    have back : .free ∈ pathOf b later :=
      mem_map.mpr ⟨_, mem_filter.mpr ⟨used, decide_eq_true (congrArg some buffer)⟩, rfl⟩
    have last := acc.getLast?_pathOf out
    rw [past, append_cons, pathOf_append, getLast?_append_of_ne_nil _ (ne_nil_of_mem back)] at last
    exact issuedFor_ne_nil (mem_of_getLast? last) replaced
  · -- the latest handle has another generation
    have last := acc.latest out
    have newest : (issuedFor b hs)[n + k]? = some h := by
      rw [← latest, ← last, getLast?_eq_getElem?, length]
      rfl
    rw [acc.issued b, getElem?_handlesUpTo p.id b (by omega)] at newest
    have generation := congrArg (fun h : ReturnHandle => h.generation.toNat)
      ((Option.some.inj newest).trans own)
    simp only [UInt32.toNat_ofNat'] at generation
    have some : k ≠ 0 := mt length_eq_zero_iff.mp replaced
    have few : k < 4294967296 := few
    omega

end Accounts

end BufferPool

/-! ## What the pool of a machine honours -/

namespace Machine

variable {m m₀ : Machine} {place count size align : Nat}

/-- A pool honours the handles of the latest deliveries, and no others. -/
structure HonoursLatest (m : Machine) (place : Nat) (p : BufferPool)
    (hs : List (PoolCall × PoolAnswer)) : Prop where
  /-- A word is honoured just when it is the latest handle of a buffer that is out. -/
  honoured_iff : ∀ r : UInt64, (m.release place (.ofRaw r)).1 = .ok () ↔
    ∃ b h, p.stateOf? b = some .delivered ∧ (issuedFor b hs).getLast? = some h ∧ r = h.toRaw
  /-- Every other word is rejected, and nothing changes. -/
  rejected : ∀ r : UInt64, (m.release place (.ofRaw r)).1 ≠ .ok () →
    m.release place (.ofRaw r) = (.error .invalidHandle, m)
  /-- A handle that names another pool is rejected. -/
  foreign : ∀ h : ReturnHandle, h.pool ≠ p.id → m.release place h = (.error .invalidHandle, m)
  /-- A handle is rejected once it was released or its buffer was delivered again, until its
  generation comes round again. -/
  retired : ∀ before later b h, hs = before ++ (.markDelivered b, .handed h) :: later →
    (.release h, .done) ∈ later ∨ issuedFor b later ≠ [] → (issuedFor b later).length < UInt32.size →
    m.release place h = (.error .invalidHandle, m)

/-- A handle that is not honoured is rejected, and nothing changes. -/
theorem release_of_not_honours (pool : m.poolAt? place = some p)
    (dishonoured : ¬p.honours h = true) : m.release place h = (.error .invalidHandle, m) := by
  rw [release, if_neg]
  rw [pool]
  exact dishonoured

theorem honoursLatest (pool : m.poolAt? place = some p) (acc : p.Accounts hs) :
    m.HonoursLatest place p hs := by
  have ok_iff (h : ReturnHandle) : (m.release place h).1 = .ok () ↔ p.honours h = true := by
    by_cases honoured : p.honours h = true
    · rw [release_eq pool honoured]
      exact ⟨fun _ => honoured, fun _ => rfl⟩
    · rw [release_of_not_honours pool honoured]
      exact ⟨nofun, fun honoured' => absurd honoured' honoured⟩
  refine ⟨fun r => ?_, fun r failed => ?_, fun h other => ?_,
    fun before later b h past gone few => ?_⟩
  · rw [ok_iff, BufferPool.honours_iff]
    constructor
    · rintro ⟨out, own⟩
      refine ⟨_, _, out, acc.latest out, ?_⟩
      rw [own, ReturnHandle.toRaw_ofRaw]
    · rintro ⟨b, h, out, last, rfl⟩
      obtain rfl := Option.some.inj ((acc.latest out).symm.trans last)
      rw [ReturnHandle.ofRaw_toRaw]
      exact ⟨out, rfl⟩
  · exact release_of_not_honours pool fun honoured => failed ((ok_iff _).mpr honoured)
  · refine release_of_not_honours pool fun honoured => other ?_
    exact (congrArg ReturnHandle.pool (BufferPool.honours_iff.mp honoured).2).symm
  · exact release_of_not_honours pool (acc.not_honours past gone few)

/-- **Only the latest handles are honoured**, whatever calls a pool has had.  The handles are told
from the answers of the pool to those calls. -/
theorem only_latest_handles_are_honoured (made : m.createPool count size align = (.ok place, m₀))
    (cs : List PoolCall) :
    ∃ p, (m₀.callAll place cs).2.poolAt? place = some p ∧
      (m₀.callAll place cs).2.HonoursLatest place p (m₀.callAll place cs).1 := by
  obtain ⟨id, layout, addresses, pool, length, named⟩ := poolAt?_createPool made
  have new := BufferPool.ledger_ofAddresses id layout (length.le.trans named)
  obtain ⟨p, pool, -, acc⟩ := callAll_keeps (P := fun hs p => p.Accounts hs)
    (fun acc target => acc.moved target) (fun acc _ => acc.blocked _) pool new.free
    (.new id layout addresses) cs
  exact ⟨p, pool, honoursLatest pool acc⟩

/-- A buffer goes out twice.  Only the second handle is good for anything. -/
theorem only_latest_handles_are_honoured_again :
    ∃ (m₀ : Machine) (cs : List PoolCall), ({} : Machine).createPool 1 2048 64 = (.ok 0, m₀) ∧
      (m₀.callAll 0 cs).1 =
        [(.acquire, .acquired ⟨0⟩), (.markPosted ⟨0⟩, .done),
          (.markDelivered ⟨0⟩, .handed ⟨1, ⟨0⟩, 1⟩), (.release ⟨1, ⟨0⟩, 1⟩, .done),
          (.acquire, .acquired ⟨0⟩), (.markPosted ⟨0⟩, .done),
          (.markDelivered ⟨0⟩, .handed ⟨1, ⟨0⟩, 2⟩)] ∧
      ((m₀.callAll 0 cs).2.release 0 ⟨1, ⟨0⟩, 2⟩).1 = .ok () ∧
      ((m₀.callAll 0 cs).2.release 0 ⟨1, ⟨0⟩, 1⟩).1 = .error .invalidHandle ∧
      ∃ p, (m₀.callAll 0 cs).2.poolAt? 0 = some p ∧
        (m₀.callAll 0 cs).2.HonoursLatest 0 p (m₀.callAll 0 cs).1 := by
  have made : ({} : Machine).createPool 1 2048 64 =
      (.ok 0, (({} : Machine).createPool 1 2048 64).2) := rfl
  exact ⟨_, [.acquire, .markPosted ⟨0⟩, .markDelivered ⟨0⟩, .release ⟨1, ⟨0⟩, 1⟩, .acquire,
    .markPosted ⟨0⟩, .markDelivered ⟨0⟩], made, by decide +kernel, by decide +kernel,
    by decide +kernel, only_latest_handles_are_honoured made _⟩

end Machine

end DescriptorRings
