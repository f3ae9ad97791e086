import DescriptorRings.Proofs.Device.Memory
import DescriptorRings.Proofs.Machine.Blocks

/-!
# Asking for many blocks

A pool takes a block for each of its buffers, and the allocator may refuse any of them.  What comes of
that is known from a list: the addresses that were granted, in order.  The blocks there follow one
another in number, from the first that is not in use (`Machine.allocateMany_eq`); and if they are too
few, all of them are given back, in the same order (`Machine.Forgone`).

Nothing else happens on the way.  `Machine.Trades` says so by naming the whole scene: it is the scene of
before, but for the memory and for the events that were entered.  This is what makes a pool that cannot
be made as good as one that was never asked for.

Where the blocks lie is up to the allocator.  An allocator that grants an address twice while its first
block is still in use breaks its contract; what depends on that says so.
-/

namespace DescriptorRings

open List

/-! ## The memory -/

namespace Memory

variable {m : Memory} {l : Layout} {as : List BusAddress}

/-- The memory after blocks were granted at these addresses, one after the other. -/
def grantAll (m : Memory) (l : Layout) (as : List BusAddress) : Memory :=
  as.foldl (fun m a => m.grant l a) m

theorem toList_blocks_grantAll (m : Memory) (l : Layout) (as : List BusAddress) :
    (m.grantAll l as).blocks.toList =
      m.blocks.toList ++ replicate as.length { size := l.size } := by
  induction as generalizing m with
  | nil => exact (append_nil _).symm
  | cons a as ih =>
    refine (ih (m.grant l a)).trans ?_
    rw [grant, Array.toList_push, append_assoc, length_cons, replicate_succ]
    rfl

/-- The addresses name blocks that follow one another, from the first one on. -/
def Names (m : Memory) (first : Nat) (as : List BusAddress) : Prop :=
  ∀ (i : Nat) (a : BusAddress), as[i]? = some a → m.blockAt? a = some (first + i)

theorem Names.tail {first : Nat} {a : BusAddress} (h : m.Names first (a :: as)) :
    m.Names (first + 1) as := by
  intro i b here
  rw [Nat.add_assoc, Nat.add_comm 1]
  exact h (i + 1) b here

theorem blockAt?_grantAll (l : Layout) {b : BusAddress} (h : b ∉ as) :
    (m.grantAll l as).blockAt? b = m.blockAt? b := by
  induction as generalizing m with
  | nil => rfl
  | cons a as ih =>
    have rest : b ∉ as := fun inside => h (mem_cons_of_mem a inside)
    have ne : b ≠ a := fun same => h (same ▸ mem_cons_self)
    exact (ih rest).trans (m.blockAt?_grant_of_ne l ne)

/-- **Blocks that are granted follow one another**, if each has an address of its own. -/
theorem names_grantAll (l : Layout) (distinct : as.Nodup) :
    (m.grantAll l as).Names m.blocks.size as := by
  induction as generalizing m with
  | nil => exact fun _ _ h => absurd h (by simp)
  | cons a as ih =>
    obtain ⟨new, rest⟩ := nodup_cons.mp distinct
    intro i b here
    cases i with
    | zero =>
      obtain rfl := Option.some.inj here
      exact (blockAt?_grantAll l new).trans (m.blockAt?_grant_self l a)
    | succ i =>
      have named := ih rest (m := m.grant l a) i b here
      rw [grant, Array.size_push, Nat.add_assoc, Nat.add_comm 1] at named
      exact named

/-- **Blocks that follow one another can be given back together.** -/
theorem foldl_free {before fresh : List Block} (blocks : m.blocks.toList = before ++ fresh)
    (length : as.length = fresh.length) (names : m.Names before.length as) :
    (as.foldl free m).blocks.toList = before ++ fresh.map fun b => { b with live := false } := by
  induction as generalizing m before fresh with
  | nil =>
    obtain rfl := length_eq_zero_iff.mp length.symm
    exact blocks
  | cons a as ih =>
    obtain _ | ⟨b, rest⟩ := fresh
    · exact nomatch length
    have here : m.blockAt? a = some before.length := names 0 a rfl
    have freed : (m.free a).blocks.toList = (before ++ [{ b with live := false }]) ++ rest := by
      rw [free, modifyAt, here, Array.toList_modify, blocks, modify_eq_take_drop, take_left,
        drop_left, append_assoc]
      rfl
    have others : (m.free a).Names (before ++ [{ b with live := false }]).length as := by
      intro i c there
      rw [length_append, length_singleton, free, blockAt?_modifyAt]
      exact names.tail i c there
    have next := ih freed (Nat.succ.inj length) others
    rw [append_assoc, singleton_append] at next
    rw [foldl_cons, map_cons]
    exact next

end Memory

namespace Machine

variable {m m' m'' : Machine} {es es' : List Event} {layout : Layout} {count : Nat}
  {as : List BusAddress}

/-! ## Trading with the allocator -/

/-- From one machine to another these events were entered, and nothing but the memory has changed. -/
structure Trades (es : List Event) (m m' : Machine) : Prop where
  /-- The rest of the scene is as it was. -/
  scene : m'.toScene =
    { m.toScene with memory := m'.memory, journal := es.foldl Journal.add m.journal }

namespace Trades

theorem refl (m : Machine) : Trades [] m m := ⟨rfl⟩

theorem trans (h : Trades es m m') (h' : Trades es' m' m'') : Trades (es ++ es') m m'' := by
  refine ⟨?_⟩
  rw [h'.scene, h.scene, foldl_append]

/-- One event is entered. -/
theorem record (m : Machine) (mem : Memory) (e : Event) :
    Trades [e] m ({ m with memory := mem }.record e) :=
  ⟨by rw [toScene_record]; rfl⟩

theorem give (m : Machine) (n : Notice) :
    ∃ notices, Trades notices m (m.give n) ∧ ∀ e ∈ notices, e = .noticed n := by
  unfold Machine.give
  split
  · exact ⟨_, record m m.memory (.noticed n), fun e he => mem_singleton.mp he⟩
  · exact ⟨[], refl m, fun e he => absurd he not_mem_nil⟩

theorem freeAll (as : List BusAddress) (m : Machine) :
    Trades (as.map .freed) m (m.freeAll as) := by
  induction as generalizing m with
  | nil => exact refl m
  | cons a as ih => exact (record m (m.memory.free a) (.freed a)).trans (ih _)

theorem journal (h : Trades es m m') : m'.journal = es.foldl Journal.add m.journal := by
  rw [h.scene]

/-- All events are kept, if the journal keeps all. -/
theorem events (h : Trades es m m') (complete : m.journal.detail = .complete) :
    m'.journal.detail = .complete ∧ m'.journal.events.toList = m.journal.events.toList ++ es := by
  rw [h.journal]
  clear h
  induction es generalizing m with
  | nil => exact ⟨complete, (append_nil _).symm⟩
  | cons e es ih =>
    have added : (m.record e).journal = m.journal.add e := journal_record m e
    obtain ⟨detail, entered⟩ := ih (m := m.record e) (by
      rw [added, Journal.detail_add]
      exact complete)
    rw [added] at detail entered
    refine ⟨detail, entered.trans ?_⟩
    rw [Journal.toList_events_add complete, append_assoc, singleton_append]

theorem enters {P : Event → Prop} (h : Trades es m m') (all : ∀ e ∈ es, P e) : m.Enters P m' := by
  refine ⟨?_, fun complete => ⟨es, (h.events complete).2, all⟩⟩
  rw [h.journal]
  clear h all
  induction es generalizing m with
  | nil => rfl
  | cons e es ih =>
    have added : (m.record e).journal = m.journal.add e := journal_record m e
    have rest := ih (m := m.record e)
    rw [added, Journal.detail_add] at rest
    exact rest

end Trades

theorem memory_freeAll (as : List BusAddress) (m : Machine) :
    (m.freeAll as).memory = as.foldl Memory.free m.memory := by
  induction as generalizing m with
  | nil => rfl
  | cons a as ih =>
    refine (ih _).trans (congrArg (as.foldl Memory.free) ?_)
    rw [free, toScene_record]

/-! ## What is granted -/

/-- The events of asking for `count` blocks, of which so many were granted. -/
def requests (layout : Layout) (count : Nat) (granted : List BusAddress) : List Event :=
  granted.map (fun a => .allocated layout (some a)) ++
    if granted.length < count then [.allocated layout none] else []

/-- **What comes of asking for `count` blocks**: some are granted, one after the other.  If that is not
all, the next one was refused. -/
structure Granted (layout : Layout) (count : Nat) (granted : List BusAddress) (m m' : Machine) :
    Prop where
  /-- There are not more than were asked for. -/
  few : granted.length ≤ count
  /-- They are what the allocator has answered, and the next answer was none. -/
  answers : ∀ i < count, i ≤ granted.length →
    m.memory.allocator.answer (m.memory.asked + i) (m.memory.blocks.size + i) layout = granted[i]?
  /-- Nothing else has happened. -/
  trades : m.Trades (requests layout count granted) m'
  /-- They come after all that there were. -/
  blocks : m'.memory.blocks = (m.memory.grantAll layout granted).blocks
  /-- They lie where the allocator has said. -/
  directory : m'.memory.directory = (m.memory.grantAll layout granted).directory

theorem Granted.names (h : m.Granted layout count as m') (distinct : as.Nodup) :
    m'.memory.Names m.memory.blocks.size as := by
  intro i a here
  rw [Memory.blockAt?, h.directory]
  exact Memory.names_grantAll layout distinct i a here

/-- **Blocks are granted one after the other**, until one is refused. -/
theorem allocateMany_eq (m : Machine) (layout : Layout) (count : Nat) :
    ∃ granted k, m.allocateMany layout count = (granted, k) ∧
      m.Granted layout count granted k := by
  have rounds (count : Nat) (g : Grant) : ∃ granted k,
      loop (Grant.next layout) count g = ⟨granted.reverse ++ g.granted, k⟩ ∧
        g.machine.Granted layout count granted k := by
    induction count generalizing g with
    | zero =>
      exact ⟨[], g.machine, rfl, Nat.le_refl _, fun i none => absurd none i.not_lt_zero, .refl _,
        rfl, rfl⟩
    | succ count ih =>
      set mem := g.machine.memory with hm
      set k := (g.machine.allocate layout).2 with hk
      cases answer : mem.allocator.answer mem.asked mem.blocks.size layout with
      | some a =>
        have allocated := Memory.allocate_of_some answer
        have memory : k.memory = mem.grant layout a := by
          rw [hk, allocate, allocated, toScene_record]
        have asked : g.machine.Trades [.allocated layout (some a)] k := by
          rw [hk, allocate, allocated]
          exact .record _ _ _
        have again : Grant.next layout g = (true, ⟨a :: g.granted, k⟩) := by
          rw [Grant.next, hk, allocate, allocated]
        obtain ⟨granted, k', grown, few, answers, trades, blocks, directory⟩ :=
          ih ⟨a :: g.granted, k⟩
        dsimp only at grown few answers trades blocks directory
        rw [memory] at answers blocks directory
        rw [loop_of_again (by rw [again]), again, grown]
        refine ⟨a :: granted, k', ?_, Nat.succ_le_succ few, fun i hi here => ?_, ?_, blocks,
          directory⟩
        · rw [reverse_cons, append_assoc, singleton_append]
        · cases i with
          | zero => exact answer
          | succ i =>
            have next := answers i (Nat.lt_of_succ_lt_succ hi) (Nat.le_of_succ_le_succ here)
            rw [Memory.grant, Array.size_push, Nat.add_assoc, Nat.add_assoc, Nat.add_comm 1] at next
            exact next
        · have both := asked.trans trades
          unfold requests at both ⊢
          rw [map_cons, length_cons]
          simp only [Nat.add_lt_add_iff_right]
          exact both
      | none =>
        have refused := Memory.allocate_of_none answer
        have asked : g.machine.Trades [.allocated layout none] k := by
          rw [hk, allocate, refused]
          exact .record _ _ _
        have stop : Grant.next layout g = (false, ⟨g.granted, k⟩) := by
          rw [Grant.next, hk, allocate, refused]
        have memory : k.memory = mem.refuse := by
          rw [hk, allocate, refused, toScene_record]
        rw [loop_of_stop (by rw [stop]), stop]
        refine ⟨[], k, rfl, Nat.zero_le _, fun i _ here => ?_, asked, ?_, ?_⟩
        · obtain rfl := Nat.le_zero.mp here
          exact answer
        · rw [memory]
          rfl
        · rw [memory]
          rfl
  obtain ⟨granted, k, grown, all⟩ := rounds count ⟨[], m⟩
  refine ⟨granted, k, ?_, all⟩
  rw [allocateMany, grown, append_nil, reverse_reverse]

/-! ## Nothing for nothing -/

/-- **Blocks were asked for in vain.**  Not all were granted, and those that were have been given back;
nothing else has changed. -/
structure Forgone (layout : Layout) (count : Nat) (granted : List BusAddress) (m m' : Machine) :
    Prop where
  /-- Not all were granted. -/
  short : granted.length < count
  /-- The allocator has refused the next one. -/
  refused : m.memory.allocator.answer (m.memory.asked + granted.length)
    (m.memory.blocks.size + granted.length) layout = none
  /-- One request was refused, and what had been granted went back. -/
  trades : ∃ notices : List Event, (∀ e ∈ notices, ∃ n, e = .noticed n) ∧
    m.Trades (granted.map (fun a => .allocated layout (some a)) ++ [.allocated layout none] ++
      notices ++ granted.map .freed) m'
  /-- The same blocks are out. -/
  out : m.journal.detail = .complete →
    blocksOut m'.journal.events.toList ~ blocksOut m.journal.events.toList
  /-- As many blocks are in use, unless two of them were put at one address. -/
  live : granted.Nodup → m'.memory.liveCount = m.memory.liveCount

/-- Blocks that come and go leave out what was out before. -/
theorem blocksOut_of_returned {granted : List BusAddress} {notices : List Event}
    (noticed : ∀ e ∈ notices, ∃ n, e = .noticed n) (es : List Event) :
    blocksOut (es ++ (granted.map (fun a => .allocated layout (some a)) ++
        [.allocated layout none] ++ notices ++ granted.map .freed)) ~ blocksOut es := by
  have come (as out : List BusAddress) :
      (as.map fun a => Event.allocated layout (some a)).foldl Event.settle out =
        as.reverse ++ out := by
    induction as generalizing out with
    | nil => rfl
    | cons a as ih =>
      rw [map_cons, foldl_cons, ih, reverse_cons, append_assoc]
      rfl
  have stay (out : List BusAddress) : notices.foldl Event.settle out = out := by
    clear come
    induction notices with
    | nil => rfl
    | cons e notices ih =>
      obtain ⟨n, rfl⟩ := noticed e mem_cons_self
      exact ih fun e' he' => noticed e' (mem_cons_of_mem _ he')
  have go (as : List BusAddress) {out rest : List BusAddress} (perm : out ~ as ++ rest) :
      (as.map Event.freed).foldl Event.settle out ~ rest := by
    induction as generalizing out with
    | nil => exact perm
    | cons a as ih =>
      have erased := perm.erase a
      rw [cons_append, erase_cons_head] at erased
      exact ih erased
  rw [blocksOut, blocksOut, foldl_append, foldl_append, foldl_append, foldl_append, come]
  refine go granted ?_
  rw [stay]
  exact (reverse_perm granted).append_right _

/-- **Blocks that are too few are given back**, with a notice in between. -/
theorem Granted.forgone (granted : m.Granted layout count as m') (short : as.length < count)
    (notice : Notice) : m.Forgone layout count as ((m'.give notice).freeAll as) := by
  obtain ⟨notices, given, noticed⟩ := Trades.give m' notice
  have noticed' (e : Event) (he : e ∈ notices) : ∃ n, e = .noticed n := ⟨notice, noticed e he⟩
  have trades : m.Trades (as.map (fun a => .allocated layout (some a)) ++
      [.allocated layout none] ++ notices ++ as.map .freed) ((m'.give notice).freeAll as) := by
    have asked := granted.trades
    rw [requests, if_pos short] at asked
    exact (asked.trans given).trans (.freeAll as _)
  refine ⟨short, ?_, ⟨notices, noticed', trades⟩, fun complete => ?_, fun distinct => ?_⟩
  · rw [granted.answers _ short (Nat.le_refl _), getElem?_eq_none (Nat.le_refl _)]
  · rw [(trades.events complete).2]
    exact blocksOut_of_returned noticed' _
  · have memory : (m'.give notice).memory = m'.memory := by
      obtain ⟨j, scene⟩ := exists_toScene_give m' notice
      rw [scene]
    have names := granted.names distinct
    rw [← Array.length_toList] at names
    have blocks : m'.memory.blocks.toList =
        m.memory.blocks.toList ++ replicate as.length { size := layout.size } := by
      rw [granted.blocks, Memory.toList_blocks_grantAll]
    have freed := Memory.foldl_free blocks length_replicate.symm names
    rw [memory_freeAll, memory, Memory.liveCount, ← Array.countP_toList, freed, countP_append,
      map_replicate, countP_replicate, Memory.liveCount, ← Array.countP_toList]
    rfl

/-- **What becomes of making a pool**: it has the blocks that were granted, one for each buffer, and a
notice was given of it. -/
theorem createPool_eq_ok {size align place : Nat}
    (made : m.createPool count size align = (.ok place, m')) :
    place = m.pools.size ∧ count ≤ Config.maxBuffers ∧ ∃ layout id addresses k,
      addresses.length = count ∧ m.allocateMany layout count = (addresses, k) ∧
        m.Granted layout count addresses k ∧ m' = { k.give (.poolCreated id count size) with
          pools := m.pools.push { pool := .ofAddresses id layout addresses } } := by
  unfold createPool at made
  split at made
  case isTrue => exact nomatch congrArg Prod.fst made
  case isFalse possible =>
    split at made
    case h_1 => exact nomatch congrArg Prod.fst made
    case h_2 layout _ =>
      obtain ⟨addresses, k, asked, granted⟩ := m.allocateMany_eq layout count
      rw [asked] at made
      dsimp only at made
      split at made
      case isTrue => exact nomatch congrArg Prod.fst made
      case isFalse enough =>
        have all : addresses.length = count :=
          Nat.le_antisymm granted.few (Nat.le_of_not_lt enough)
        obtain ⟨answer, rfl⟩ := Prod.mk.inj made
        have pools : k.pools = m.pools := by rw [granted.trades.scene]
        have pools' (notice : Notice) : (k.give notice).pools = k.pools := by
          obtain ⟨j, scene⟩ := k.exists_toScene_give notice
          rw [scene]
        refine ⟨?_, by omega, layout, .ofNat (k.pools.size + 1), addresses, k, all, asked, granted,
          ?_⟩
        · rw [← pools]
          exact (Except.ok.inj answer).symm
        · rw [pools', pools]

/-- **A pool that is made has the buffers that were asked for, all free.** -/
theorem poolAt?_createPool {size align place : Nat}
    (made : m.createPool count size align = (.ok place, m')) :
    ∃ id layout addresses, m'.poolAt? place = some (.ofAddresses id layout addresses) ∧
      addresses.length = count ∧ count ≤ Config.maxBuffers := by
  obtain ⟨rfl, named, layout, id, addresses, k, length, -, -, rfl⟩ := createPool_eq_ok made
  refine ⟨id, layout, addresses, ?_, length, named⟩
  rw [poolAt?]
  dsimp only
  rw [Array.getElem?_push_size]
  rfl

/-- **A pool of a size that pools can have** is made, with a block for each buffer, or one of its blocks
is refused and nothing is left of it. -/
theorem createPool_of_layout {size align : Nat} (some : 0 < count) (named : count ≤ Config.maxBuffers)
    (fits : Layout.ofSizes? size align = Option.some layout) :
    (∃ granted k, m.createPool count size align = (.error .outOfMemory, k) ∧
        m.Forgone layout count granted k) ∨
      ∃ k es id addresses, addresses.length = count ∧ m.Trades es k ∧
        m.createPool count size align = (.ok m.pools.size,
          { k with pools := k.pools.push { pool := .ofAddresses id layout addresses } }) := by
  obtain ⟨addresses, k, asked, granted⟩ := m.allocateMany_eq layout count
  have possible : ¬(count = 0 ∨ Config.maxBuffers < count) := by omega
  unfold createPool
  rw [if_neg possible, fits]
  dsimp only
  rw [asked]
  dsimp only
  split
  · next short => exact .inl ⟨addresses, _, rfl, granted.forgone short _⟩
  · next enough =>
    obtain ⟨notices, given, -⟩ := Trades.give k
      (.poolCreated (UInt16.ofNat (k.pools.size + 1)) count size)
    have pools : k.pools = m.pools := by rw [granted.trades.scene]
    refine .inr ⟨_, _, .ofNat (k.pools.size + 1), addresses, ?_, granted.trades.trans given, ?_⟩
    · exact Nat.le_antisymm granted.few (Nat.le_of_not_lt enough)
    · rw [pools]

end Machine

end DescriptorRings
