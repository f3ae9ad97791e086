import DescriptorRings.Config
import DescriptorRings.Receive.Pool
import Mathlib.Data.List.FinRange
import Mathlib.Data.List.Perm.Basic

/-!
# The ledger of a pool

A pool keeps a state for each buffer.  Whoever uses the pool keeps buffers: a ring in its slots, the
upper layer under its handles.  The *ledger* of a pool says that the two agree: for each state there
is a list of the buffers in that state, without repetition, and the lists are just what the users of
the pool have (`Ledger`).  The handles that are out are moreover those of the latest delivery of
their buffers, so that a release under one of them is never refused.

Every edge between two states moves one buffer from one list to another and leaves the others alone
(`Moves`), so each edge has one lemma here: `Ledger.acquire`, `post`, `putBack`, `recycle`,
`deliver` and `release`.

The order of the lists does not matter, and all statements about them are up to `Perm`.
-/

namespace DescriptorRings

open List

namespace Tally

/-- How many buffers are counted in a state. -/
def number (t : Tally) : BufferState → Nat
  | .free => t.free
  | .acquired => t.acquired
  | .posted => t.posted
  | .delivered => t.delivered

@[simp] theorem number_empty (s : BufferState) : number {} s = 0 := by
  cases s <;> rfl

theorem number_count (t : Tally) (r s : BufferState) :
    (t.count r).number s = t.number s + if r = s then 1 else 0 := by
  cases r <;> cases s <;> simp [count, number]

end Tally

namespace BufferPool

variable {p p' : BufferPool} {b : BufferId} {s t u : BufferState} {bs cs : List BufferId}

/-! ## Lists of buffers -/

/-- A list names the buffers in a state, each of them once. -/
structure Lists (p : BufferPool) (s : BufferState) (bs : List BufferId) : Prop where
  /-- No buffer is named twice. -/
  nodup : bs.Nodup
  /-- Just the buffers in the state are named. -/
  mem_iff : ∀ b, b ∈ bs ↔ p.stateOf? b = some s

/-- One buffer changes its state. -/
structure Moves (p p' : BufferPool) (b : BufferId) (s t : BufferState) : Prop where
  /-- The state that the buffer had. -/
  before : p.stateOf? b = some s
  /-- The state that it has. -/
  after : p'.stateOf? b = some t
  /-- The other buffers keep theirs. -/
  others : ∀ c, c ≠ b → p'.stateOf? c = p.stateOf? c

namespace Lists

theorem perm (h : p.Lists s bs) (same : bs ~ cs) : p.Lists s cs :=
  ⟨same.nodup_iff.mp h.nodup, fun b => same.mem_iff.symm.trans (h.mem_iff b)⟩

/-- The buffer leaves the list of its old state. -/
theorem leave (h : p.Lists s (b :: bs)) (moves : p.Moves p' b s t) (ne : s ≠ t) :
    p'.Lists s bs := by
  obtain ⟨absent, nodup⟩ := nodup_cons.mp h.nodup
  refine ⟨nodup, fun c => ?_⟩
  by_cases same : c = b
  · subst same
    rw [moves.after]
    exact ⟨fun hc => absurd hc absent, fun hc => absurd (Option.some.inj hc).symm ne⟩
  · rw [moves.others c same, ← h.mem_iff c, mem_cons]
    exact ⟨Or.inr, fun hc => hc.resolve_left same⟩

/-- It joins the list of its new state. -/
theorem join (h : p.Lists t bs) (moves : p.Moves p' b s t) (ne : s ≠ t) : p'.Lists t (b :: bs) := by
  have absent : b ∉ bs := by
    intro hb
    exact ne (Option.some.inj (moves.before.symm.trans ((h.mem_iff b).mp hb)))
  refine ⟨nodup_cons.mpr ⟨absent, h.nodup⟩, fun c => ?_⟩
  by_cases same : c = b
  · subst same
    exact ⟨fun _ => moves.after, fun _ => mem_cons_self⟩
  · rw [moves.others c same, ← h.mem_iff c, mem_cons]
    exact ⟨fun hc => hc.resolve_left same, Or.inr⟩

/-- The other lists stay as they are. -/
theorem stay (h : p.Lists u bs) (moves : p.Moves p' b s t) (hs : s ≠ u) (ht : t ≠ u) :
    p'.Lists u bs := by
  refine ⟨h.nodup, fun c => ?_⟩
  rw [h.mem_iff c]
  by_cases same : c = b
  · subst same
    rw [moves.before, moves.after]
    exact ⟨fun hc => absurd (Option.some.inj hc) hs, fun hc => absurd (Option.some.inj hc) ht⟩
  · rw [moves.others c same]

end Lists

/-! ## Edges -/

theorem index_lt_of_stateOf? (h : p.stateOf? b = some s) : b.index < p.capacity := by
  unfold stateOf? at h
  obtain ⟨x, hx, -⟩ := Option.map_eq_some_iff.mp h
  exact (Array.getElem?_eq_some_iff.mp hx).1

theorem moves_move (h : p.stateOf? b = some s) (t : BufferState) : p.Moves (p.move b t) b s t :=
  ⟨h, stateOf?_move_self (index_lt_of_stateOf? h) t, fun _ ne => stateOf?_move_of_ne p ne t⟩

theorem moves_deliver (h : p.stateOf? b = some s) : p.Moves (p.deliver b) b s .delivered := by
  have inside : b.index < p.buffers.size := index_lt_of_stateOf? h
  refine ⟨h, ?_, fun c ne => ?_⟩
  · simp only [stateOf?, deliver, Array.getElem?_modify]
    simp [inside]
  · have : b.index ≠ c.index := fun e => ne (BufferId.index_inj.mp e).symm
    simp [stateOf?, deliver, Array.getElem?_modify, this]

/-- The buffer that is acquired next is the first of the free ones. -/
theorem acquireNext_eq {rest : List BufferId} (h : p.free = b :: rest) :
    p.acquireNext = { p.move b .acquired with free := rest } := by
  unfold acquireNext
  rw [h]
  rfl

theorem moves_acquireNext {rest : List BufferId} (free : p.free = b :: rest)
    (h : p.stateOf? b = some .free) : p.Moves p.acquireNext b .free .acquired := by
  have moves := moves_move h .acquired
  rw [acquireNext_eq free]
  exact ⟨h, moves.after, moves.others⟩

theorem acquireNext_of_nil (h : p.free = []) : p.acquireNext = p := by
  unfold acquireNext
  rw [h]

/-! ## What edges leave alone -/

/-- The address of a buffer that the pool has. -/
def base (p : BufferPool) (b : BufferId) : BusAddress := (p.buffers.getD b.index default).address

theorem addressOf?_eq_base (h : p.stateOf? b = some s) : p.addressOf? b = some (p.base b) := by
  have inside : b.index < p.buffers.size := index_lt_of_stateOf? h
  simp [addressOf?, base, Array.getD_eq_getD_getElem?, inside]

/-- Nothing about the buffers has changed but their states and generations. -/
structure Kept (p p' : BufferPool) : Prop where
  /-- The number of the pool. -/
  id : p'.id = p.id
  /-- The layout of the buffers. -/
  layout : p'.layout = p.layout
  /-- The number of buffers. -/
  capacity : p'.capacity = p.capacity
  /-- Where they lie. -/
  base : ∀ b, p'.base b = p.base b

theorem Kept.refl (p : BufferPool) : p.Kept p := ⟨rfl, rfl, rfl, fun _ => rfl⟩

theorem Kept.trans {p'' : BufferPool} (h : p.Kept p') (h' : p'.Kept p'') : p.Kept p'' :=
  ⟨h'.id.trans h.id, h'.layout.trans h.layout, h'.capacity.trans h.capacity,
    fun b => (h'.base b).trans (h.base b)⟩

theorem base_modify (p : BufferPool) (c b : BufferId) (f : Buffer → Buffer)
    (keeps : ∀ x, (f x).address = x.address) :
    ((p.buffers.modify c.index f).getD b.index default).address = p.base b := by
  unfold base
  rw [Array.getD_eq_getD_getElem?, Array.getD_eq_getD_getElem?, Array.getElem?_modify]
  by_cases same : c.index = b.index
  · rw [if_pos same]
    cases p.buffers[b.index]? with
    | none => rfl
    | some x => exact keeps x
  · rw [if_neg same]

/-- What no change of an entry alters is the same after a change of one. -/
theorem map_modify {α β : Type} (xs : Array α) (i : Nat) {f : α → α} {g : α → β}
    (keeps : ∀ x, g (f x) = g x) : (xs.modify i f).map g = xs.map g := by
  refine Array.ext_getElem? fun j => ?_
  rw [Array.getElem?_map, Array.getElem?_map, Array.getElem?_modify]
  split
  · cases xs[j]? with
    | none => rfl
    | some x => exact congrArg some (keeps x)
  · rfl

theorem addresses_modify (p : BufferPool) (i : Nat) {f : Buffer → Buffer}
    (keeps : ∀ x, (f x).address = x.address) :
    (p.buffers.modify i f).toList.map Buffer.address = p.addresses := by
  rw [← Array.toList_map, map_modify _ _ keeps, Array.toList_map, addresses]

@[simp] theorem addresses_move (p : BufferPool) (b : BufferId) (s : BufferState) :
    (p.move b s).addresses = p.addresses :=
  addresses_modify p b.index fun _ => rfl

@[simp] theorem addresses_deliver (p : BufferPool) (b : BufferId) :
    (p.deliver b).addresses = p.addresses :=
  addresses_modify p b.index fun _ => rfl

@[simp] theorem addresses_acquireNext (p : BufferPool) : p.acquireNext.addresses = p.addresses := by
  unfold acquireNext
  split
  · rfl
  · exact addresses_modify p _ fun _ => rfl

theorem kept_move (p : BufferPool) (b : BufferId) (s : BufferState) : p.Kept (p.move b s) :=
  ⟨rfl, rfl, capacity_move p b s, fun c => base_modify p b c _ fun _ => rfl⟩

theorem kept_deliver (p : BufferPool) (b : BufferId) : p.Kept (p.deliver b) :=
  ⟨rfl, rfl, capacity_deliver p b, fun c => base_modify p b c _ fun _ => rfl⟩

theorem kept_acquireNext (p : BufferPool) : p.Kept p.acquireNext := by
  cases h : p.free with
  | nil =>
    rw [acquireNext_of_nil h]
    exact .refl p
  | cons b rest =>
    have kept := kept_move p b .acquired
    rw [acquireNext_eq h]
    exact ⟨kept.id, kept.layout, kept.capacity, kept.base⟩

/-- Only a delivery changes a handle, and only that of its own buffer. -/
theorem handleOf_move (p : BufferPool) (b c : BufferId) (s : BufferState) :
    (p.move b s).handleOf c = p.handleOf c := by
  have same : ((p.buffers.modify b.index fun x => { x with state := s }).getD c.index
      default).generation = (p.buffers.getD c.index default).generation := by
    rw [Array.getD_eq_getD_getElem?, Array.getD_eq_getD_getElem?, Array.getElem?_modify]
    split
    · cases p.buffers[c.index]? <;> rfl
    · rfl
  exact congrArg (ReturnHandle.mk p.id c) same

theorem handleOf_deliver_of_ne (p : BufferPool) {b c : BufferId} (ne : c ≠ b) :
    (p.deliver b).handleOf c = p.handleOf c := by
  have ne' : b.index ≠ c.index := fun e => ne (BufferId.index_inj.mp e).symm
  simp only [handleOf, deliver, Array.getD_eq_getD_getElem?, Array.getElem?_modify, if_neg ne']

/-! ## The ledger -/

/-- The buffers of a pool by their states, as the users of the pool have them. -/
structure Ledger (p : BufferPool) (acquired posted : List BufferId) (out : List ReturnHandle) :
    Prop where
  /-- The pool knows its free buffers. -/
  free : p.Lists .free p.free
  /-- Buffers that are going to be posted. -/
  acquired : p.Lists .acquired acquired
  /-- Buffers that the adapter may write to. -/
  posted : p.Lists .posted posted
  /-- Buffers that the upper layer has. -/
  delivered : p.Lists .delivered (out.map ReturnHandle.buffer)
  /-- The upper layer has the handles of the latest deliveries. -/
  own : ∀ h ∈ out, p.handleOf h.buffer = h
  /-- Each buffer has a name. -/
  named : p.capacity ≤ Config.maxBuffers

namespace Ledger

variable {acquired posted acquired' posted' : List BufferId} {out out' : List ReturnHandle}
  {h : ReturnHandle}

theorem perm (l : p.Ledger acquired posted out) (ha : acquired ~ acquired') (hp : posted ~ posted')
    (ho : out ~ out') : p.Ledger acquired' posted' out' where
  free := l.free
  acquired := l.acquired.perm ha
  posted := l.posted.perm hp
  delivered := l.delivered.perm (ho.map _)
  own h hh := l.own h (ho.mem_iff.mpr hh)
  named := l.named

theorem acquire {rest : List BufferId} (l : p.Ledger acquired posted out)
    (free : p.free = b :: rest) : p.acquireNext.Ledger (b :: acquired) posted out := by
  have lists := l.free
  rw [free] at lists
  have moves := moves_acquireNext free ((lists.mem_iff b).mp mem_cons_self)
  refine ⟨?_, l.acquired.join moves (by decide), l.posted.stay moves (by decide) (by decide),
    l.delivered.stay moves (by decide) (by decide), fun h hh => ?_,
    (capacity_acquireNext p).le.trans l.named⟩
  · have rest' : p.acquireNext.free = rest := by rw [acquireNext_eq free]
    rw [rest']
    exact lists.leave moves (by decide)
  · rw [acquireNext_eq free]
    exact (handleOf_move p b _ _).trans (l.own h hh)

theorem post (l : p.Ledger (b :: acquired) posted out) :
    (p.move b .posted).Ledger acquired (b :: posted) out := by
  have moves := moves_move ((l.acquired.mem_iff b).mp mem_cons_self) .posted
  exact ⟨l.free.stay moves (by decide) (by decide), l.acquired.leave moves (by decide),
    l.posted.join moves (by decide), l.delivered.stay moves (by decide) (by decide),
    fun h hh => (handleOf_move p b _ _).trans (l.own h hh), (capacity_move p b _).le.trans l.named⟩

theorem putBack (l : p.Ledger (b :: acquired) posted out) :
    (p.move b .free).Ledger acquired posted out := by
  have moves := moves_move ((l.acquired.mem_iff b).mp mem_cons_self) .free
  exact ⟨l.free.join moves (by decide), l.acquired.leave moves (by decide),
    l.posted.stay moves (by decide) (by decide), l.delivered.stay moves (by decide) (by decide),
    fun h hh => (handleOf_move p b _ _).trans (l.own h hh), (capacity_move p b _).le.trans l.named⟩

theorem recycle (l : p.Ledger acquired (b :: posted) out) :
    (p.move b .free).Ledger acquired posted out := by
  have moves := moves_move ((l.posted.mem_iff b).mp mem_cons_self) .free
  exact ⟨l.free.join moves (by decide), l.acquired.stay moves (by decide) (by decide),
    l.posted.leave moves (by decide), l.delivered.stay moves (by decide) (by decide),
    fun h hh => (handleOf_move p b _ _).trans (l.own h hh), (capacity_move p b _).le.trans l.named⟩

/-- A delivery gives out a handle, and changes none of those that are out. -/
theorem deliver (l : p.Ledger acquired (b :: posted) out) :
    (p.deliver b).Ledger acquired posted ((p.deliver b).handleOf b :: out) := by
  have state := (l.posted.mem_iff b).mp mem_cons_self
  have moves := moves_deliver state
  refine ⟨l.free.stay moves (by decide) (by decide), l.acquired.stay moves (by decide) (by decide),
    l.posted.leave moves (by decide), l.delivered.join moves (by decide), fun h hh => ?_,
    (capacity_deliver p b).le.trans l.named⟩
  rcases mem_cons.mp hh with rfl | hout
  · rfl
  · have ne : h.buffer ≠ b := by
      rintro rfl
      have delivered := (l.delivered.mem_iff h.buffer).mp (mem_map_of_mem hout)
      exact BufferState.noConfusion (Option.some.inj (state.symm.trans delivered))
    exact (handleOf_deliver_of_ne p ne).trans (l.own h hout)

/-- **A handle that is out is honoured.** -/
theorem honours (l : p.Ledger acquired posted (h :: out)) : p.honours h = true :=
  honours_iff.mpr ⟨(l.delivered.mem_iff h.buffer).mp mem_cons_self, l.own h mem_cons_self⟩

theorem release (l : p.Ledger acquired posted (h :: out)) :
    (p.move h.buffer .free).Ledger acquired posted out := by
  have moves := moves_move ((l.delivered.mem_iff h.buffer).mp mem_cons_self) .free
  exact ⟨l.free.join moves (by decide), l.acquired.stay moves (by decide) (by decide),
    l.posted.stay moves (by decide) (by decide), l.delivered.leave moves (by decide),
    fun g hg => (handleOf_move p _ _ _).trans (l.own g (mem_cons_of_mem h hg)),
    (capacity_move p _ _).le.trans l.named⟩

end Ledger

/-! ## Counting -/

theorem number_foldl_count (s : BufferState) (xs : List Buffer) (n : Tally) :
    (xs.foldl (fun n x => n.count x.state) n).number s =
      n.number s + xs.countP fun x => x.state = s := by
  induction xs generalizing n with
  | nil => rfl
  | cons x xs ih =>
    rw [foldl_cons, ih, Tally.number_count, countP_cons]
    by_cases same : x.state = s
    · rw [if_pos same, if_pos (decide_eq_true same)]
      omega
    · rw [if_neg same, if_neg (by simpa using same)]
      omega

/-- **The tally counts the buffers that are listed.** -/
theorem Lists.number_tally (h : p.Lists s bs) (named : p.capacity ≤ Config.maxBuffers) :
    p.tally.number s = bs.length := by
  set xs := p.buffers.toList with hxs
  have small : xs.length ≤ 65535 := named
  have name (i : Fin xs.length) : (BufferId.ofNat i).index = i :=
    BufferId.index_ofNat (by have := i.isLt; omega)
  have state (b : BufferId) : p.stateOf? b = xs[b.index]?.map Buffer.state := by
    rw [stateOf?, hxs, Array.getElem?_toList]
  -- the listed buffers, read off the pool by index
  let js := (finRange xs.length).filter fun i => (xs.get i).state = s
  have perm : bs ~ js.map fun i : Fin xs.length => BufferId.ofNat i := by
    refine (perm_ext_iff_of_nodup h.nodup ?_).mpr fun b => ?_
    · refine ((nodup_finRange _).filter _).map fun i j same => ?_
      have index := congrArg BufferId.index same
      rw [name, name] at index
      exact Fin.ext index
    · rw [h.mem_iff, state, mem_map]
      constructor
      · intro hb
        obtain ⟨x, hx, hs⟩ := Option.map_eq_some_iff.mp hb
        obtain ⟨inside, rfl⟩ := List.getElem?_eq_some_iff.mp hx
        refine ⟨⟨b.index, inside⟩, mem_filter.mpr ⟨mem_finRange _, decide_eq_true hs⟩, ?_⟩
        exact BufferId.index_inj.mp (name ⟨b.index, inside⟩)
      · rintro ⟨i, hi, rfl⟩
        have found := of_decide_eq_true (mem_filter.mp hi).2
        rw [name, getElem?_eq_getElem i.isLt]
        exact congrArg some found
  have count : p.tally.number s = xs.countP fun x => x.state = s := by
    rw [tally, ← Array.foldl_toList, number_foldl_count, Tally.number_empty, Nat.zero_add]
  calc p.tally.number s
      = xs.countP fun x => x.state = s := count
    _ = ((finRange xs.length).map xs.get).countP fun x => x.state = s := by
        rw [map_get_finRange]
    _ = js.length := by rw [countP_map, countP_eq_length_filter]; rfl
    _ = bs.length := by rw [perm.length_eq, length_map]

/-- Each buffer is counted in one state. -/
theorem total_tally (p : BufferPool) : p.tally.total = p.capacity := by
  have counts (xs : List Buffer) (t : Tally) :
      (xs.foldl (fun t x => t.count x.state) t).total = t.total + xs.length := by
    induction xs generalizing t with
    | nil => rfl
    | cons x xs ih =>
      rw [foldl_cons, ih, Tally.total_count, length_cons]
      omega
  rw [tally, ← Array.foldl_toList, counts, Array.length_toList]
  exact Nat.zero_add _

/-! ## New pools -/

theorem addresses_ofAddresses (id : UInt16) (layout : Layout) (addresses : List BusAddress) :
    (ofAddresses id layout addresses).addresses = addresses := by
  rw [BufferPool.addresses, ofAddresses, List.toList_toArray, map_map]
  exact map_id addresses

/-- The buffers of a new pool are all free. -/
theorem ledger_ofAddresses (id : UInt16) (layout : Layout) {addresses : List BusAddress}
    (named : addresses.length ≤ Config.maxBuffers) :
    (ofAddresses id layout addresses).Ledger [] [] [] := by
  have small : addresses.length ≤ 65535 := named
  have state (b : BufferId) : (ofAddresses id layout addresses).stateOf? b =
      if b.index < addresses.length then some .free else none := by
    unfold stateOf? ofAddresses
    split
    · rename_i inside
      simp [inside]
    · rename_i outside
      simp [Nat.le_of_not_lt outside]
  have none {s : BufferState} (ne : s ≠ .free) : (ofAddresses id layout addresses).Lists s [] := by
    refine ⟨nodup_nil, fun b => ⟨fun hb => absurd hb not_mem_nil, fun hb => ?_⟩⟩
    rw [state] at hb
    split at hb
    · exact absurd (Option.some.inj hb).symm ne
    · exact absurd hb (Option.some_ne_none s).symm
  refine ⟨⟨?_, fun b => ?_⟩, none (by decide), none (by decide), none (by decide),
    fun h hh => absurd hh not_mem_nil, ?_⟩
  · refine nodup_range.map_on fun i hi j hj same => ?_
    have index := congrArg BufferId.index same
    rw [BufferId.index_ofNat (by have := mem_range.mp hi; omega),
      BufferId.index_ofNat (by have := mem_range.mp hj; omega)] at index
    exact index
  · have mem : b ∈ (ofAddresses id layout addresses).free ↔ b.index < addresses.length := by
      refine mem_map.trans ⟨?_, fun inside => ⟨b.index, mem_range.mpr inside, ?_⟩⟩
      · rintro ⟨i, hi, rfl⟩
        have inside := mem_range.mp hi
        rw [BufferId.index_ofNat (by omega)]
        exact inside
      · exact BufferId.index_inj.mp (BufferId.index_ofNat b.index_lt)
    rw [mem, state]
    split <;> simp [*]
  · show (addresses.map _).toArray.size ≤ _
    rw [List.size_toArray, length_map]
    exact named

end BufferPool

end DescriptorRings
