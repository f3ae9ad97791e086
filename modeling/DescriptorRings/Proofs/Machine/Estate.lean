import DescriptorRings.Proofs.Machine.Blocks
import DescriptorRings.Proofs.Machine.Pools
import Mathlib.Data.List.Flatten
import Mathlib.Data.List.Perm.Subperm

/-!
# Who has the blocks

A block that is out belongs to a pool, and a pool has its blocks as long as anybody refers to it.  Both
can be looked up in a scene: who refers to a pool is looked up by the machine itself
(`Scene.refersTo`), and the blocks that are out are read off the journal (`blocksOut`).  This file says
how the two agree.

Between two requests they agree exactly: the blocks that are out are those of the pools that are
referred to, each once (`Scene.Sound.perm`).  There are only two occasions on which they may not, and
both are short.  While a pool is being made its blocks come in before anybody can refer to it, and while
one is being taken down they go one by one.  The scene is *in transit* then, which shows in its last
event.  Even then no block is missing that belongs to a pool that is referred to, so what the upper
layer holds is always safe (`Scene.Orderly`).

When a reference goes there is a moment of doubt whether it was the last one.  That is what `doubt` is
for in `Scene.Sound`: a pool there may have its blocks and yet be referred to by nobody.
-/

namespace DescriptorRings

open List

variable {s s' : Scene} {place : Nat} {a : BusAddress}

/-! ## The blocks of pools -/

theorem BufferPool.length_addresses (p : BufferPool) : p.addresses.length = p.capacity := by
  rw [addresses, length_map, Array.length_toList, capacity]

/-- What a pool has of the allocator: where its blocks lie, and whether it still has them. -/
def PoolEntry.assets (e : PoolEntry) : List BusAddress × Bool := (e.pool.addresses, e.live)

namespace Scene

/-- The blocks of the pool at a place. -/
def blocksAt (s : Scene) (place : Nat) : List BusAddress :=
  (s.pools[place]?.map fun e => e.pool.addresses).getD []

/-- Whether the pool at a place still has its blocks. -/
def livesAt (s : Scene) (place : Nat) : Bool := s.pools[place]?.any PoolEntry.live

/-- The blocks of the pools at some places. -/
def blocksOf (s : Scene) (chosen : Nat → Bool) : List BusAddress :=
  ((range s.pools.size).filter chosen).flatMap s.blocksAt

/-- The capacities of all pools that are referred to, taken together. -/
def capacityReferred (s : Scene) : Nat :=
  (((range s.pools.size).filter s.refersTo).map fun place =>
    (s.pools[place]?.map fun e => e.pool.capacity).getD 0).sum

theorem length_blocksOf_refersTo (s : Scene) :
    (s.blocksOf s.refersTo).length = s.capacityReferred := by
  rw [blocksOf, length_flatMap, capacityReferred]
  refine congrArg sum (map_congr_left fun place _ => ?_)
  unfold blocksAt
  cases s.pools[place]? with
  | none => rfl
  | some e => exact e.pool.length_addresses

theorem exists_of_livesAt (h : s.livesAt place = true) :
    ∃ e, s.pools[place]? = some e ∧ e.live = true :=
  (Option.any_eq_true _ _).mp h

theorem lt_of_livesAt (h : s.livesAt place = true) : place < s.pools.size := by
  obtain ⟨e, here, -⟩ := exists_of_livesAt h
  exact (Array.getElem?_eq_some_iff.mp here).1

theorem lt_of_mem_blocksAt (h : a ∈ s.blocksAt place) : place < s.pools.size := by
  unfold blocksAt at h
  cases here : s.pools[place]? with
  | none =>
    rw [here] at h
    exact absurd h not_mem_nil
  | some e => exact (Array.getElem?_eq_some_iff.mp here).1

theorem mem_blocksOf {chosen : Nat → Bool} (h : a ∈ s.blocksAt place)
    (here : chosen place = true) : a ∈ s.blocksOf chosen :=
  mem_flatMap.mpr ⟨place, mem_filter.mpr ⟨mem_range.mpr (lt_of_mem_blocksAt h), here⟩, h⟩

/-- Fewer pools have fewer blocks. -/
theorem blocksOf_sublist {p q : Nat → Bool} (within : ∀ place, p place = true → q place = true) :
    s.blocksOf p <+ s.blocksOf q := by
  have chosen : (range s.pools.size).filter p = ((range s.pools.size).filter q).filter p := by
    rw [filter_filter]
    refine filter_congr fun place _ => ?_
    cases h : p place with
    | false => rfl
    | true => rw [within place h]; rfl
  unfold blocksOf
  rw [chosen]
  exact filter_sublist.flatMap _

/-- The blocks of one pool among several. -/
theorem blocksOf_perm {p : Nat → Bool} (inside : place < s.pools.size) (here : p place = true) :
    s.blocksOf p ~ s.blocksAt place ++ s.blocksOf fun i => i != place && p i := by
  have mem : place ∈ (range s.pools.size).filter p :=
    mem_filter.mpr ⟨mem_range.mpr inside, here⟩
  have apart : (range s.pools.size).filter p ~
      place :: (range s.pools.size).filter fun i => i != place && p i := by
    have rest := perm_cons_erase mem
    rwa [(nodup_range.filter p).erase_eq_filter, filter_filter] at rest
  exact apart.flatMap_right s.blocksAt

/-- There is one more pool, and the others have the same blocks as before. -/
theorem blocksOf_succ (chosen : Nat → Bool) {chosen' : Nat → Bool} (size : s'.pools.size = s.pools.size + 1)
    (blocks : ∀ i < s.pools.size, s'.blocksAt i = s.blocksAt i)
    (same : ∀ i < s.pools.size, chosen' i = chosen i) :
    s'.blocksOf chosen' = s.blocksOf chosen ++
      if chosen' s.pools.size then s'.blocksAt s.pools.size else [] := by
  have old : (range s.pools.size).filter chosen' = (range s.pools.size).filter chosen :=
    filter_congr fun i inside => by rw [same i (mem_range.mp inside)]
  have mapped : ((range s.pools.size).filter chosen).flatMap s'.blocksAt = s.blocksOf chosen :=
    flatMap_congr fun i inside => blocks i (mem_range.mp (mem_filter.mp inside).1)
  rw [blocksOf, size, range_succ, filter_append, old, flatMap_append, mapped]
  split
  · next new => rw [filter_cons_of_pos new, filter_nil, flatMap_cons, flatMap_nil, append_nil]
  · next none => rw [filter_cons_of_neg none, filter_nil, flatMap_nil]

/-! ## References -/

/-- What stands over all adapters. -/
def assemblies (s : Scene) : List Assembly := s.atWork :: s.aside

/-- Whether whoever made the pool at a place still refers to it. -/
def listsAt (s : Scene) (place : Nat) : Bool := s.pools[place]?.any PoolEntry.listed

/-- A pool is referred to by whoever made it, by something over an adapter, or by a held frame. -/
theorem refersTo_iff : s.refersTo place = true ↔
    s.listsAt place = true ∨ (∃ a ∈ s.assemblies, a.refersTo place = true) ∨
      ∃ f, some f ∈ s.frames ∧ f.pool = place := by
  have held : (s.frames.any fun f => f.any fun f => f.pool == place) = true ↔
      ∃ f, some f ∈ s.frames ∧ f.pool = place := by
    rw [Array.any_eq_true']
    constructor
    · rintro ⟨_ | f, here, draws⟩
      · exact absurd draws Bool.false_ne_true
      · exact ⟨f, here, beq_iff_eq.mp draws⟩
    · rintro ⟨f, here, draws⟩
      exact ⟨some f, here, beq_iff_eq.mpr draws⟩
  unfold refersTo
  rw [Bool.or_eq_true, Bool.or_eq_true, Bool.or_eq_true, any_eq_true, held]
  simp only [assemblies, mem_cons, exists_eq_or_imp, listsAt, or_assoc]

/-- The pools of two scenes have the same blocks, and the same of them still have them. -/
theorem assets_eq (same : s'.pools.map PoolEntry.assets = s.pools.map PoolEntry.assets) :
    s'.pools.size = s.pools.size ∧ s'.blocksAt = s.blocksAt ∧ s'.livesAt = s.livesAt := by
  have at_place (place : Nat) :
      s'.pools[place]?.map PoolEntry.assets = s.pools[place]?.map PoolEntry.assets := by
    rw [← Array.getElem?_map, same, Array.getElem?_map]
  refine ⟨?_, funext fun place => ?_, funext fun place => ?_⟩
  · simpa using congrArg Array.size same
  · have mapped := congrArg (fun o => (o.map Prod.fst).getD []) (at_place place)
    rwa [Option.map_map, Option.map_map] at mapped
  · have mapped := congrArg (fun o => o.any Prod.snd) (at_place place)
    rwa [Option.any_map, Option.any_map] at mapped

theorem listsAt_eq (same : s'.pools.map PoolEntry.estate = s.pools.map PoolEntry.estate) :
    s'.listsAt = s.listsAt := by
  funext place
  have mapped : s'.pools[place]?.map PoolEntry.estate = s.pools[place]?.map PoolEntry.estate := by
    rw [← Array.getElem?_map, same, Array.getElem?_map]
  have listed := congrArg (fun o => o.any fun e : List BusAddress × Bool × Bool => e.2.1) mapped
  rwa [Option.any_map, Option.any_map] at listed

end Scene

/-- The engine over an adapter draws from the same pool as the receive ring. -/
def Assembly.Paired (a : Assembly) : Prop :=
  ∀ e, a.engine = some e → a.rx.map RxRing.pool = some e.pool

/-- So it is enough to ask the receive ring. -/
theorem Assembly.Paired.refersTo_iff {a : Assembly} (h : a.Paired) :
    a.refersTo place = true ↔ a.rx.map RxRing.pool = some place := by
  unfold refersTo
  rw [Bool.or_eq_true, Option.any_eq_true, Option.any_eq_true, Option.map_eq_some_iff]
  constructor
  · rintro (⟨e, engine, draws⟩ | ⟨r, rx, draws⟩)
    · rw [beq_iff_eq] at draws
      rw [← Option.map_eq_some_iff, h e engine, draws]
    · exact ⟨r, rx, beq_iff_eq.mp draws⟩
  · rintro ⟨r, rx, draws⟩
    exact .inr ⟨r, rx, beq_iff_eq.mpr draws⟩

namespace Scene

/-! ## Sound scenes -/

/-- The blocks that are out are those of the pools that have not been taken down, and these are the
pools that are referred to; except that there may be a `doubt` about some of them. -/
structure Sound (doubt : Nat → Prop) (s : Scene) : Prop where
  /-- The blocks that are out are those of the pools that live. -/
  account : ∃ out, s.journal.Accounts out ∧ out ~ s.blocksOf s.livesAt
  /-- A pool that is referred to lives. -/
  lives : ∀ place, s.refersTo place = true → s.livesAt place = true
  /-- A pool that lives is referred to. -/
  referred : ∀ place, s.livesAt place = true → s.refersTo place = true ∨ doubt place
  /-- A held frame lies in a block of its pool. -/
  frames : ∀ f, some f ∈ s.frames → f.address ∈ s.blocksAt f.pool
  /-- An engine draws from the pool that it refers to. -/
  paired : ∀ a ∈ s.assemblies, a.Paired

/-- There is no doubt. -/
abbrev Settled (s : Scene) : Prop := s.Sound fun _ => False

/-- What the journal tells is no less, and references change. -/
theorem Sound.of_references {doubt doubt' : Nat → Prop} (h : s.Sound doubt)
    (account : ∀ out, s.journal.Accounts out → s'.journal.Accounts out)
    (assets : s'.pools.map PoolEntry.assets = s.pools.map PoolEntry.assets)
    (fewer : ∀ place, s'.refersTo place = true → s.refersTo place = true)
    (rest : ∀ place, s.refersTo place = true ∨ doubt place →
      s'.refersTo place = true ∨ doubt' place)
    (frames : ∀ f, some f ∈ s'.frames → f.address ∈ s.blocksAt f.pool)
    (paired : ∀ a ∈ s'.assemblies, a.Paired) : s'.Sound doubt' := by
  obtain ⟨size, blocks, lives⟩ := assets_eq assets
  refine ⟨?_, fun place refers => ?_, fun place alive => ?_, ?_, paired⟩
  · obtain ⟨out, accounts, perm⟩ := h.account
    refine ⟨out, account out accounts, perm.trans (Perm.of_eq ?_)⟩
    rw [blocksOf, blocksOf, size, blocks, lives]
  · rw [lives]
    exact h.lives place (fewer place refers)
  · rw [lives] at alive
    exact rest place (h.referred place alive)
  · rw [blocks]
    exact frames

theorem SameEstate.refersTo_eq (h : s.SameEstate s') (place : Nat) :
    s'.refersTo place = s.refersTo place := by
  have rx : (s'.rx.any fun r => r.pool == place) = s.rx.any fun r => r.pool == place := by
    have mapped := congrArg (fun o => o.any (· == place)) h.rx
    rwa [Option.any_map, Option.any_map] at mapped
  have listed : (s'.pools[place]?.any PoolEntry.listed) = s.pools[place]?.any PoolEntry.listed :=
    congrFun (listsAt_eq h.pools) place
  unfold refersTo
  rw [listed, h.frames, h.aside]
  simp only [Assembly.refersTo, atWork, h.engine, rx]

theorem SameEstate.assets_eq (h : s.SameEstate s') :
    s'.pools.map PoolEntry.assets = s.pools.map PoolEntry.assets := by
  have mapped := congrArg (fun es => es.map fun e : List BusAddress × Bool × Bool => (e.1, e.2.2))
    h.pools
  rwa [Array.map_map, Array.map_map] at mapped

theorem SameEstate.blocksAt_eq (h : s.SameEstate s') : s'.blocksAt = s.blocksAt :=
  (Scene.assets_eq h.assets_eq).2.1

/-- Nothing that concerns the pools has happened. -/
theorem Sound.of_sameEstate {doubt : Nat → Prop} (h : s.Sound doubt) (same : s.SameEstate s') :
    s'.Sound doubt := by
  refine h.of_references same.account same.assets_eq (fun place => ?_) (fun place => ?_) ?_
    fun a ha => ?_
  · rw [same.refersTo_eq]
    exact id
  · rw [same.refersTo_eq]
    exact id
  · rw [same.frames]
    exact h.frames
  · rcases mem_cons.mp ha with rfl | ha
    · intro e engine
      exact same.rx.trans (h.paired s.atWork mem_cons_self e (same.engine.symm.trans engine))
    · exact h.paired a (mem_cons_of_mem _ (same.aside ▸ ha))

/-- Memory and journal change, and the journal tells the same. -/
theorem Sound.recount {doubt : Nat → Prop} (h : s.Sound doubt) (mem : Memory) {j : Journal}
    (account : ∃ out, j.Accounts out ∧ out ~ s.blocksOf s.livesAt) :
    Sound doubt { s with memory := mem, journal := j } :=
  ⟨account, h.lives, h.referred, h.frames, h.paired⟩

/-- A doubt is resolved if the pool is referred to, or does not live. -/
theorem Sound.resolve (h : s.Sound (· = place))
    (known : s.livesAt place = true → s.refersTo place = true) : s.Settled := by
  refine ⟨h.account, h.lives, fun i alive => ?_, h.frames, h.paired⟩
  rcases h.referred i alive with refers | rfl
  · exact .inl refers
  · exact .inl (known alive)

/-- There may always be a doubt. -/
theorem Sound.doubt (h : s.Settled) (doubt : Nat → Prop) : s.Sound doubt :=
  ⟨h.account, h.lives, fun i alive => .inl ((h.referred i alive).resolve_right id), h.frames,
    h.paired⟩

end Scene

/-! ## Every moment -/

/-- Whether something is about a pool that is just being made or taken down, or about a frame that is
just being dropped. -/
def Event.isOfPool : Event → Bool
  | .allocated _ _ | .freed _ => true
  | .noticed (.allocationFailed _ _) | .noticed (.poolCreated _ _ _) => true
  | .noticed (.poolLostPosted _ _) | .noticed (.frameReleaseFailed _) => true
  | _ => false

namespace Scene

/-- A pool is just being made or taken down. -/
def inTransit (s : Scene) : Bool := s.journal.events.back?.any Event.isOfPool

/-- What can be said of every moment of a run. -/
structure Orderly (s : Scene) : Prop where
  /-- All blocks of the pools that are referred to are out. -/
  covered : s.blocksOf s.refersTo <+~ blocksOut s.journal.events.toList
  /-- As many blocks are out as these pools have, unless a pool is just being made or taken down. -/
  balanced : s.inTransit = false →
    (blocksOut s.journal.events.toList).length = s.capacityReferred
  /-- The block in which a held frame lies is out. -/
  held : ∀ f, some f ∈ s.frames → f.address ∈ blocksOut s.journal.events.toList

/-- A held frame lies in a block of a pool that is referred to. -/
theorem mem_blocksOf_of_held (frames : ∀ f, some f ∈ s.frames → f.address ∈ s.blocksAt f.pool)
    {f : Frame} (hf : some f ∈ s.frames) : f.address ∈ s.blocksOf s.refersTo :=
  mem_blocksOf (frames f hf) (refersTo_iff.mpr (.inr (.inr ⟨f, hf, rfl⟩)))

theorem Orderly.of_inTransit (frames : ∀ f, some f ∈ s.frames → f.address ∈ s.blocksAt f.pool)
    (covered : s.blocksOf s.refersTo <+~ blocksOut s.journal.events.toList)
    (transit : s.inTransit = true) : s.Orderly :=
  ⟨covered, fun none => absurd (transit.symm.trans none) Bool.noConfusion,
    fun _ hf => covered.subset (mem_blocksOf_of_held frames hf)⟩

namespace Sound

variable {doubt : Nat → Prop}

/-- The blocks of the pools that are referred to are out. -/
theorem covered (h : s.Sound doubt) :
    s.blocksOf s.refersTo <+~ blocksOut s.journal.events.toList := by
  obtain ⟨out, accounts, perm⟩ := h.account
  rw [accounts.out_eq]
  exact (blocksOf_sublist h.lives).subperm.trans perm.symm.subperm

/-- **The blocks that are out are those of the pools that are referred to**, each as often. -/
theorem perm (h : s.Settled) : blocksOut s.journal.events.toList ~ s.blocksOf s.refersTo := by
  obtain ⟨out, accounts, perm⟩ := h.account
  have same : s.livesAt = s.refersTo := by
    funext place
    rw [Bool.eq_iff_iff]
    exact ⟨fun alive => (h.referred place alive).resolve_right id, h.lives place⟩
  rwa [accounts.out_eq, ← same]

theorem orderly (h : s.Settled) : s.Orderly :=
  ⟨h.covered, fun _ => h.perm.length_eq.trans s.length_blocksOf_refersTo,
    fun _ hf => h.covered.subset (mem_blocksOf_of_held h.frames hf)⟩

end Sound

/-! ## References that come and go -/

/-- Whoever made the pool at a place refers to it again, or no more. -/
def relist (s : Scene) (place : Nat) (on : Bool) : Scene :=
  { s with pools := s.pools.modify place fun e => { e with listed := on } }

theorem assets_relist (s : Scene) (place : Nat) (on : Bool) :
    (s.relist place on).pools.map PoolEntry.assets = s.pools.map PoolEntry.assets :=
  BufferPool.map_modify s.pools place (f := fun e => { e with listed := on }) fun _ => rfl

theorem blocksAt_relist (s : Scene) (place : Nat) (on : Bool) :
    (s.relist place on).blocksAt = s.blocksAt :=
  (assets_eq (s.assets_relist place on)).2.1

theorem listsAt_relist (s : Scene) (place i : Nat) (on : Bool) :
    (s.relist place on).listsAt i =
      if place = i then s.pools[i]?.any fun _ => on else s.listsAt i := by
  unfold listsAt relist
  rw [Array.getElem?_modify]
  split
  · cases s.pools[i]? <;> rfl
  · rfl

/-- Only one pool may be concerned. -/
theorem refersTo_relist_of_ne (s : Scene) (on : Bool) {i : Nat} (other : place ≠ i) :
    (s.relist place on).refersTo i = s.refersTo i := by
  have listed : (s.relist place on).pools[i]?.any PoolEntry.listed =
      s.pools[i]?.any PoolEntry.listed :=
    (listsAt_relist s place i on).trans (if_neg other)
  unfold refersTo
  rw [listed]
  rfl

/-- A reference that goes is not referred by. -/
theorem refersTo_of_unlisted (s : Scene) {i : Nat}
    (refers : (s.relist place false).refersTo i = true) : s.refersTo i = true := by
  by_cases here : place = i
  · rw [refersTo_iff, listsAt_relist, if_pos here] at refers
    rw [refersTo_iff]
    refine refers.imp_left fun listed => ?_
    obtain ⟨_, -, none⟩ := (Option.any_eq_true _ _).mp listed
    exact absurd none Bool.false_ne_true
  · rwa [refersTo_relist_of_ne s false here] at refers

/-! ## Making pools and taking them down -/

/-- The pool at a place has no blocks any more. -/
def bury (s : Scene) (place : Nat) : Scene :=
  { s with pools := s.pools.modify place fun e => { e with live := false } }

/-- There is one more pool. -/
def found (s : Scene) (p : BufferPool) : Scene := { s with pools := s.pools.push { pool := p } }

theorem livesAt_bury (s : Scene) (place i : Nat) :
    (s.bury place).livesAt i = (i != place && s.livesAt i) := by
  unfold livesAt bury
  rw [Array.getElem?_modify]
  split
  · next here =>
    subst here
    cases s.pools[place]? <;> simp
  · next other =>
    rw [bne_iff_ne.mpr fun same => other same.symm, Bool.true_and]

theorem blocksAt_bury (s : Scene) (place : Nat) : (s.bury place).blocksAt = s.blocksAt := by
  funext i
  unfold blocksAt bury
  rw [Array.getElem?_modify]
  split
  · next here =>
    subst here
    cases s.pools[place]? <;> rfl
  · rfl

theorem refersTo_bury (s : Scene) (place i : Nat) : (s.bury place).refersTo i = s.refersTo i := by
  have listed : (s.bury place).pools[i]?.any PoolEntry.listed = s.pools[i]?.any PoolEntry.listed := by
    unfold bury
    rw [Array.getElem?_modify]
    split
    · next here =>
      subst here
      cases s.pools[place]? <;> rfl
    · rfl
  unfold refersTo
  rw [listed]
  rfl

/-- A pool that nobody refers to is taken down when its blocks have gone. -/
theorem Sound.bury (h : s.Sound (· = place)) (unused : s.refersTo place = false) (mem : Memory)
    {j : Journal}
    (account : ∃ out, j.Accounts out ∧ out ~ s.blocksOf fun i => i != place && s.livesAt i) :
    (Scene.bury { s with memory := mem, journal := j } place).Settled := by
  set t : Scene := { s with memory := mem, journal := j }
  have other (i : Nat) (refers : s.refersTo i = true) : i ≠ place := by
    rintro rfl
    exact Bool.false_ne_true (unused.symm.trans refers)
  refine ⟨?_, fun i refers => ?_, fun i alive => .inl ?_, fun f hf => ?_, h.paired⟩
  · obtain ⟨out, accounts, perm⟩ := account
    refine ⟨out, accounts, perm.trans (Perm.of_eq ?_)⟩
    rw [blocksOf, blocksOf, blocksAt_bury, funext (livesAt_bury t place)]
    unfold Scene.bury
    rw [Array.size_modify]
    rfl
  · rw [refersTo_bury] at refers
    rw [livesAt_bury, bne_iff_ne.mpr (other i refers)]
    exact h.lives i refers
  · rw [livesAt_bury, Bool.and_eq_true, bne_iff_ne] at alive
    rw [refersTo_bury]
    exact (h.referred i alive.2).resolve_right alive.1
  · rw [blocksAt_bury]
    exact h.frames f hf

theorem blocksAt_found (s : Scene) (p : BufferPool) (i : Nat) :
    (s.found p).blocksAt i = if i = s.pools.size then p.addresses else s.blocksAt i := by
  unfold blocksAt found
  rw [Array.getElem?_push]
  split <;> rfl

theorem livesAt_found (s : Scene) (p : BufferPool) (i : Nat) :
    (s.found p).livesAt i = (i == s.pools.size || s.livesAt i) := by
  unfold livesAt found
  rw [Array.getElem?_push]
  split
  · next new =>
    rw [beq_iff_eq.mpr new]
    rfl
  · next old =>
    rw [beq_eq_false_iff_ne.mpr old]
    rfl

theorem refersTo_found (s : Scene) (p : BufferPool) (i : Nat) :
    (s.found p).refersTo i = (i == s.pools.size || s.refersTo i) := by
  have listed : (s.found p).pools[i]?.any PoolEntry.listed =
      (i == s.pools.size || s.pools[i]?.any PoolEntry.listed) := by
    unfold found
    rw [Array.getElem?_push]
    split
    · next new =>
      rw [beq_iff_eq.mpr new]
      rfl
    · next old =>
      rw [beq_eq_false_iff_ne.mpr old]
      rfl
  unfold refersTo
  rw [listed, Bool.or_assoc, Bool.or_assoc, Bool.or_assoc, Bool.or_assoc, Bool.or_assoc]
  rfl

/-- A new pool has the blocks that were asked for. -/
theorem Sound.found (h : s.Settled) (mem : Memory) {j : Journal} {p : BufferPool}
    (account : ∃ out, j.Accounts out ∧ out ~ p.addresses ++ s.blocksOf s.livesAt) :
    (Scene.found { s with memory := mem, journal := j } p).Settled := by
  set t : Scene := { s with memory := mem, journal := j }
  refine ⟨?_, fun i refers => ?_, fun i alive => .inl ?_, fun f hf => ?_, h.paired⟩
  · obtain ⟨out, accounts, perm⟩ := account
    refine ⟨out, accounts, perm.trans ?_⟩
    have new : (t.found p).livesAt s.pools.size = true := by
      rw [livesAt_found, beq_iff_eq.mpr rfl]
      rfl
    have all : (t.found p).blocksOf (t.found p).livesAt = s.blocksOf s.livesAt ++ p.addresses := by
      rw [blocksOf_succ (s := s) s.livesAt (Array.size_push _) (fun i inside => ?_)
        fun i inside => ?_, if_pos new, blocksAt_found, if_pos rfl]
      · rw [blocksAt_found, if_neg (Nat.ne_of_lt inside)]
        rfl
      · rw [livesAt_found, beq_eq_false_iff_ne.mpr (Nat.ne_of_lt inside)]
        rfl
    rw [all]
    exact perm_append_comm
  · rw [refersTo_found, Bool.or_eq_true] at refers
    rw [livesAt_found, Bool.or_eq_true]
    exact refers.imp_right (h.lives i)
  · rw [livesAt_found, Bool.or_eq_true] at alive
    rw [refersTo_found, Bool.or_eq_true]
    exact alive.imp_right fun alive => (h.referred i alive).resolve_right id
  · have inside := h.frames f hf
    rw [blocksAt_found, if_neg (Nat.ne_of_lt (lt_of_mem_blocksAt inside))]
    exact inside

end Scene

end DescriptorRings
