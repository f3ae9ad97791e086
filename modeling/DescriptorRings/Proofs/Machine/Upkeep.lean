import DescriptorRings.Proofs.Engine.Rings
import DescriptorRings.Proofs.Machine.Estate

/-!
# Keeping the blocks in order

Every operation that makes a pool, takes one down, or changes who refers to one leaves the scene as sound
as it was, and each moment on the way is orderly (`Machine.InOrder`).

The allocator has its say at two points only, when a pool is made and when one is taken down.  Nothing
but memory and journal change then, which is what `Machine.Dealing` says: of the blocks that are out
some are *loose*, since they belong to no pool yet or to none any more, and the rest is safe.  So an
operation is a change of references before, blocks that come or go one by one, and a change of pools
after it.

References change in the hands of the upper layer, and the upper layer is called while a ring is being
served.  A ring that is being served cannot be dropped: whoever serves it refers to it.  `Busy` says
which rings these are, at work or aside, and `Steady` that they still draw from the same pools.
-/

namespace DescriptorRings

open List

/-! ## Rings that are being served -/

/-- Where something is being served. -/
structure Busy where
  /-- Over the adapter at work. -/
  here : Bool := false
  /-- Over those that wait aside. -/
  aside : Nat → Bool := fun _ => false

/-- What is at work changes places with what waits aside. -/
def Busy.exchange (b : Busy) (j : Nat) : Busy :=
  ⟨b.aside j, fun i => if i = j then b.here else b.aside i⟩

namespace Machine

variable {m m' m'' m₀ : Machine} {b : Busy}

/-- The pool that a receive ring aside draws from. -/
def drawsAside (m : Machine) (j : Nat) : Option Nat :=
  m.aside[j]?.bind fun a => a.rx.map RxRing.pool

/-- The rings that are being served draw from the same pools. -/
structure Steady (b : Busy) (m m' : Machine) : Prop where
  /-- The ring at work. -/
  here : b.here = true → m'.rx.map RxRing.pool = m.rx.map RxRing.pool
  /-- The rings aside. -/
  aside : ∀ j, b.aside j = true → m'.drawsAside j = m.drawsAside j
  /-- Nothing that waits aside is lost. -/
  room : m.aside.length ≤ m'.aside.length

namespace Steady

theorem of_eq (b : Busy) (rx : m'.rx.map RxRing.pool = m.rx.map RxRing.pool)
    (aside : m'.aside = m.aside) : Steady b m m' :=
  ⟨fun _ => rx, fun j _ => by rw [drawsAside, aside, drawsAside], by rw [aside]⟩

theorem refl (b : Busy) (m : Machine) : Steady b m m := of_eq b rfl rfl

theorem trans (h : Steady b m m') (h' : Steady b m' m'') : Steady b m m'' :=
  ⟨fun busy => (h'.here busy).trans (h.here busy),
    fun j busy => (h'.aside j busy).trans (h.aside j busy), h.room.trans h'.room⟩

/-- Less is asked where less is being served. -/
theorem idle (h : Steady { b with here := true } m m') : Steady b m m' :=
  ⟨fun _ => h.here rfl, h.aside, h.room⟩

end Steady

/-! ## Dealing with the allocator -/

/-- Since a machine blocks have been asked for and given back, and nothing else has happened.  Of the
blocks that are out now some are `loose`, and the `rest` was out all the time. -/
structure Dealing (m₀ : Machine) (rest loose : List BusAddress) (m : Machine) : Prop where
  /-- Nothing else has changed. -/
  scene : ∃ mem j, m.toScene = { m₀.toScene with memory := mem, journal := j }
  /-- These blocks are out. -/
  account : ∃ out, m.journal.Accounts out ∧ out ~ loose ++ rest
  /-- So it was all the time. -/
  moments : m₀.Spans (fun s => (∃ mem j, s = { m₀.toScene with memory := mem, journal := j }) ∧
    rest <+~ blocksOut s.journal.events.toList ∧ s.inTransit = true) m

namespace Dealing

variable {rest loose loose' : List BusAddress}

theorem start (account : ∃ out, m.journal.Accounts out ∧ out ~ loose ++ rest) :
    Dealing m rest loose m :=
  ⟨⟨_, _, rfl⟩, account, .refl _ m⟩

theorem perm (h : Dealing m₀ rest loose m) (same : loose ~ loose') : Dealing m₀ rest loose' m := by
  obtain ⟨out, accounts, perm⟩ := h.account
  exact ⟨h.scene, ⟨out, accounts, perm.trans (same.append_right rest)⟩, h.moments⟩

/-- An event is entered, and the memory may change. -/
theorem enter (h : Dealing m₀ rest loose m) (mem : Memory) {e : Event}
    (transit : e.isOfPool = true)
    (account : ∃ out, (m.journal.add e).Accounts out ∧ out ~ loose' ++ rest) :
    Dealing m₀ rest loose' ({ m with memory := mem }.record e) := by
  have scene : ∃ mem' j, ({ m with memory := mem }.record e).toScene =
      { m₀.toScene with memory := mem', journal := j } := by
    obtain ⟨_, _, scene⟩ := h.scene
    rw [toScene_record, scene]
    exact ⟨_, _, rfl⟩
  have entered : ({ m with memory := mem }.record e).journal = m.journal.add e := journal_record _ _
  obtain ⟨out, accounts, perm⟩ := account
  refine ⟨scene, ⟨out, by rwa [entered], perm⟩, h.moments.trans (.record rfl ⟨scene, ?_, ?_⟩)⟩
  · rw [entered, accounts.out_eq]
    exact (sublist_append_right loose' rest).subperm.trans perm.symm.subperm
  · obtain ⟨out', before, -⟩ := h.account
    rw [Scene.inTransit, entered, Journal.events_add_of_complete before.complete, Array.back?_push,
      Option.any_some, transit]

theorem give (h : Dealing m₀ rest loose m) {n : Notice}
    (transit : (Event.noticed n).isOfPool = true) : Dealing m₀ rest loose (m.give n) := by
  unfold Machine.give
  split
  · obtain ⟨out, accounts, perm⟩ := h.account
    exact h.enter m.memory transit ⟨out, accounts.add_other rfl, perm⟩
  · exact h

theorem giveIf (h : Dealing m₀ rest loose m) {n : Notice}
    (transit : (Event.noticed n).isOfPool = true) (condition : Bool) :
    Dealing m₀ rest loose (m.giveIf condition n) := by
  unfold Machine.giveIf
  split
  · exact h.give transit
  · exact h

/-- A block comes in, or is refused. -/
theorem allocate (h : Dealing m₀ rest loose m) (layout : Layout) :
    Dealing m₀ rest ((m.allocate layout).1.toList ++ loose) (m.allocate layout).2 := by
  obtain ⟨out, accounts, perm⟩ := h.account
  unfold Machine.allocate
  dsimp only
  cases (m.memory.allocate layout).1 with
  | none => exact h.enter _ rfl ⟨out, accounts.add nofun, perm⟩
  | some a => exact h.enter _ rfl ⟨a :: out, accounts.add nofun, perm.cons a⟩

/-- A loose block goes. -/
theorem free {a : BusAddress} (h : Dealing m₀ rest (a :: loose) m) :
    Dealing m₀ rest loose (m.free a) := by
  obtain ⟨out, accounts, perm⟩ := h.account
  have inside : a ∈ out := perm.mem_iff.mpr mem_cons_self
  refine h.enter _ rfl ⟨out.erase a, accounts.add ?_, ?_⟩
  · rintro _ ⟨⟩
    exact inside
  · have erased := perm.erase a
    rwa [cons_append, erase_cons_head] at erased

/-- All loose blocks go. -/
theorem freeAll (as : List BusAddress) (h : Dealing m₀ rest as m) :
    Dealing m₀ rest [] (m.freeAll as) := by
  induction as generalizing m with
  | nil => exact h
  | cons a as ih => exact ih h.free

/-- Blocks come in until one is refused. -/
theorem allocateMany (h : Dealing m₀ rest [] m) (layout : Layout) (count : Nat) :
    Dealing m₀ rest (m.allocateMany layout count).1 (m.allocateMany layout count).2 := by
  have rounds : Dealing m₀ rest (loop (Grant.next layout) count ⟨[], m⟩).granted
      (loop (Grant.next layout) count ⟨[], m⟩).machine := by
    refine loop_keeps (P := fun g : Grant => Dealing m₀ rest g.granted g.machine) (fun g hg => ?_)
      count h
    have asked := hg.allocate layout
    unfold Grant.next
    split
    · next e =>
      rw [e] at asked
      exact asked
    · next e =>
      rw [e] at asked
      exact asked
  exact rounds.perm (reverse_perm _).symm

end Dealing

/-! ## Order -/

/-- Since a machine every moment was orderly, and the scene is sound now. -/
structure InOrder (b : Busy) (m₀ : Machine) (doubt : Nat → Prop) (m : Machine) : Prop where
  /-- The scene is sound. -/
  sound : m.toScene.Sound doubt
  /-- Every moment was orderly. -/
  orderly : m₀.Spans Scene.Orderly m
  /-- The rings that are being served draw from the same pools. -/
  steady : Steady b m₀ m

/-- There is no doubt. -/
abbrev Tidy (b : Busy) (m₀ m : Machine) : Prop := InOrder b m₀ (fun _ => False) m

namespace InOrder

variable {doubt doubt' : Nat → Prop} {place : Nat}

theorem refl (b : Busy) (h : m.toScene.Sound doubt) : InOrder b m doubt m :=
  ⟨h, .refl _ m, .refl b m⟩

theorem trans (h : Tidy b m₀ m) (h' : InOrder b m doubt m') : InOrder b m₀ doubt m' :=
  ⟨h'.sound, h.orderly.trans h'.orderly, h.steady.trans h'.steady⟩

theorem doubted (h : Tidy b m₀ m) (doubt : Nat → Prop) : InOrder b m₀ doubt m :=
  ⟨h.sound.doubt doubt, h.orderly, h.steady⟩

/-- Nothing that concerns the pools has happened. -/
theorem undisturbed (h : Tidy b m₀ m) (quiet : m.Undisturbed m') : Tidy b m₀ m' := by
  obtain ⟨_, accounts, -⟩ := h.sound.account
  refine ⟨h.sound.of_sameEstate quiet.scene, h.orderly.trans ?_, h.steady.trans ?_⟩
  · exact (quiet.moments accounts.complete).mono fun s hs =>
      (h.sound.of_sameEstate hs.1).orderly
  · exact .of_eq b quiet.scene.rx quiet.scene.aside

/-- Nor has anything been entered, so that a doubt does not matter. -/
theorem silent (h : InOrder b m₀ doubt m) (quiet : m.Undisturbed m')
    (moments : m'.moments = m.moments) : InOrder b m₀ doubt m' :=
  ⟨h.sound.of_sameEstate quiet.scene, h.orderly.trans (.of_moments_eq _ moments),
    h.steady.trans (.of_eq b quiet.scene.rx quiet.scene.aside)⟩

/-- A notice is given while a pool is in doubt. -/
theorem notice (h : InOrder b m₀ doubt m) {n : Notice}
    (transit : (Event.noticed n).isOfPool = true) : InOrder b m₀ doubt (m.give n) := by
  have quiet := Undisturbed.give m n
  have sound := h.sound.of_sameEstate quiet.scene
  refine ⟨sound, h.orderly.trans ?_, h.steady.trans (.of_eq b quiet.scene.rx quiet.scene.aside)⟩
  unfold Machine.give at sound ⊢
  split
  · next given =>
    rw [if_pos given] at sound
    obtain ⟨_, accounts, -⟩ := h.sound.account
    refine .record rfl (.of_inTransit sound.frames sound.covered ?_)
    rw [Scene.inTransit, journal_record, Journal.events_add_of_complete accounts.complete,
      Array.back?_push, Option.any_some, transit]
  · exact .refl _ m

/-- References have changed, and nothing was entered. -/
theorem references (h : InOrder b m₀ doubt m) (journal : m'.journal = m.journal)
    (moments : m'.moments = m.moments) (steady : Steady b m m')
    (assets : m'.pools.map PoolEntry.assets = m.pools.map PoolEntry.assets)
    (fewer : ∀ place, m'.refersTo place = true → m.refersTo place = true)
    (rest : ∀ place, m.refersTo place = true ∨ doubt place →
      m'.refersTo place = true ∨ doubt' place)
    (frames : ∀ f, some f ∈ m'.frames → f.address ∈ m.toScene.blocksAt f.pool)
    (paired : ∀ a ∈ m'.assemblies, a.Paired) : InOrder b m₀ doubt' m' :=
  ⟨h.sound.of_references (fun _ accounts => journal ▸ accounts) assets fewer rest frames paired,
    h.orderly.trans (.of_moments_eq _ moments), h.steady.trans steady⟩

end InOrder

namespace Dealing

variable {rest loose : List BusAddress} {doubt : Nat → Prop}

/-- While blocks come and go every moment is orderly, if the rest is that of all pools that are referred
to. -/
theorem orderly (h : Dealing m rest loose m') (sound : m.toScene.Sound doubt)
    (safe : m.blocksOf m.refersTo <+~ rest) : m.Spans Scene.Orderly m' := by
  refine h.moments.mono fun s hs => ?_
  obtain ⟨⟨_, _, rfl⟩, covered, transit⟩ := hs
  exact .of_inTransit sound.frames (safe.trans covered) transit

theorem steady (h : Dealing m rest loose m') (b : Busy) : Steady b m m' := by
  obtain ⟨_, _, scene⟩ := h.scene
  exact .of_eq b (by rw [scene]) (by rw [scene])

end Dealing

/-! ## A pool that may have lost its last reference -/

/-- Whoever made a pool refers to it again: somebody else's reference was copied. -/
def share (m : Machine) (place : Nat) : Machine :=
  { m with pools := m.pools.modify place fun e => { e with listed := true } }

namespace InOrder

variable {doubt : Nat → Prop} {place : Nat}

/-- **A pool is taken down if nobody refers to it any more**, and then there is no doubt. -/
theorem reapPool (h : InOrder b m₀ (· = place) m) : Tidy b m₀ (m.reapPool place) := by
  unfold Machine.reapPool
  split
  · next none =>
    refine ⟨h.sound.resolve fun alive => ?_, h.orderly, h.steady⟩
    obtain ⟨e, here, -⟩ := Scene.exists_of_livesAt alive
    exact absurd (none.symm.trans here) nofun
  · next e here =>
    have alive : m.livesAt place = e.live := by rw [Scene.livesAt, here]; rfl
    split
    case isFalse kept =>
      refine ⟨h.sound.resolve fun lives => ?_, h.orderly, h.steady⟩
      rw [← alive, lives, Bool.true_and, Bool.not_eq_true', Bool.not_eq_false] at kept
      exact kept
    case isTrue last =>
      rw [Bool.and_eq_true, Bool.not_eq_true', ← alive] at last
      obtain ⟨lives, unused⟩ := last
      have blocks : m.blocksAt place = e.pool.addresses := by rw [Scene.blocksAt, here]; rfl
      obtain ⟨out, accounts, perm⟩ := h.sound.account
      have apart := Scene.blocksOf_perm (Scene.lt_of_livesAt lives) lives
      rw [blocks] at apart
      -- the blocks go one by one
      have loose : Dealing m (m.blocksOf fun i => i != place && m.livesAt i) e.pool.addresses m :=
        .start ⟨out, accounts, perm.trans apart⟩
      have gone := Dealing.freeAll _
        (loose.giveIf (n := .poolLostPosted e.pool.id e.pool.tally.posted) rfl
          (e.pool.tally.posted != 0))
      have safe : m.blocksOf m.refersTo <+~ m.blocksOf fun i => i != place && m.livesAt i := by
        refine (Scene.blocksOf_sublist fun i refers => ?_).subperm
        have other : i ≠ place := by
          rintro rfl
          exact Bool.false_ne_true (unused.symm.trans refers)
        rw [bne_iff_ne.mpr other, h.sound.lives i refers, Bool.and_self]
      have orderly := h.orderly.trans (gone.orderly h.sound safe)
      have steady := h.steady.trans (gone.steady b)
      obtain ⟨mem, j, scene⟩ := gone.scene
      obtain ⟨out', accounts', perm'⟩ := gone.account
      rw [nil_append] at perm'
      dsimp only
      generalize (m.giveIf (e.pool.tally.posted != 0)
        (.poolLostPosted e.pool.id e.pool.tally.posted)).freeAll e.pool.addresses = k at *
      have entered : k.journal = j := by rw [scene]
      rw [entered] at accounts'
      refine ⟨?_, orderly.trans (.of_moments_eq _ rfl), steady.trans (.of_eq b rfl rfl)⟩
      have buried := h.sound.bury unused mem ⟨out', accounts', perm'⟩
      rw [← scene] at buried
      exact buried

/-- Whoever made a pool lets go of it. -/
theorem dropPool (h : Tidy b m₀ m) (place : Nat) : Tidy b m₀ (m.dropPool place) := by
  set k : Machine := { m with pools := m.pools.modify place fun e => { e with listed := false } }
  have unlisted : InOrder b m₀ (· = place) k := by
    refine h.references rfl rfl (.of_eq b rfl rfl) (m.assets_relist place false)
      (fun i => m.refersTo_of_unlisted) (fun i refers => ?_) h.sound.frames h.sound.paired
    by_cases here : place = i
    · exact .inr here.symm
    · exact .inl ((m.refersTo_relist_of_ne false here).trans (refers.resolve_right id))
  exact unlisted.reapPool

/-- Somebody who refers to a pool makes another reference to it. -/
theorem share (h : Tidy b m₀ m) (refers : m.refersTo place = true) :
    Tidy b m₀ (m.share place) := by
  refine h.references rfl rfl (.of_eq b rfl rfl) (m.assets_relist place true) (fun i refers' => ?_)
    (fun i refers' => .inl ?_) h.sound.frames h.sound.paired
  · by_cases here : place = i
    · exact here ▸ refers
    · exact (m.refersTo_relist_of_ne true here).symm.trans refers'
  · by_cases here : place = i
    · have lives := h.sound.lives place refers
      obtain ⟨e, there, -⟩ := Scene.exists_of_livesAt lives
      have listed := (m.listsAt_relist place i true).trans (if_pos here)
      rw [← here, there] at listed
      exact Scene.refersTo_iff.mpr (.inl (here ▸ listed))
    · exact (m.refersTo_relist_of_ne true here).trans (refers'.resolve_right id)

/-! ### Frames -/

/-- When a frame leaves its place, all others stay. -/
theorem eq_or_mem_removeFrame {i : Nat} {f g : Frame} (here : m.frameAt? i = some f)
    (held : some g ∈ m.frames) : g = f ∨ some g ∈ (m.removeFrame i).frames := by
  have one := (perm_set_none (getElem?_of_frameAt? here)).mem_iff.mp
    (mem_filterMap.mpr ⟨some g, held.val, rfl⟩)
  refine (mem_cons.mp one).imp_right fun rest => ?_
  obtain ⟨_, inside, rfl⟩ := mem_filterMap.mp rest
  rw [removeFrame, ← Array.mem_toList_iff, Array.toList_setIfInBounds]
  exact inside

/-- A held frame leaves its place. -/
theorem removeFrame (h : Tidy b m₀ m) {i : Nat} {f : Frame} (here : m.frameAt? i = some f) :
    InOrder b m₀ (· = f.pool) (m.removeFrame i) := by
  have fewer (g : Frame) (held : some g ∈ (m.removeFrame i).frames) : some g ∈ m.frames :=
    ⟨mem_frames_removeFrame held.val⟩
  refine h.references rfl rfl (.of_eq b rfl rfl) rfl (fun place refers => ?_)
    (fun place refers => ?_) (fun g hg => h.sound.frames g (fewer g hg)) h.sound.paired
  · rw [Scene.refersTo_iff] at refers ⊢
    refine refers.imp_right (Or.imp_right ?_)
    rintro ⟨g, hg, draws⟩
    exact ⟨g, fewer g hg, draws⟩
  · have refers := refers.resolve_right id
    rw [Scene.refersTo_iff] at refers ⊢
    rcases refers with listed | uses | ⟨g, hg, rfl⟩
    · exact .inl (.inl listed)
    · exact .inl (.inr (.inl uses))
    · rcases eq_or_mem_removeFrame here hg with rfl | hg
      · exact .inr rfl
      · exact .inl (.inr (.inr ⟨g, hg, rfl⟩))

/-- A frame is held from now on. -/
theorem hold (h : Tidy b m₀ m) {f : Frame} (refers : m.refersTo f.pool = true)
    (inside : f.address ∈ m.toScene.blocksAt f.pool) :
    Tidy b m₀ { m with frames := m.frames.push (some f) } := by
  have mine (g : Frame) (hg : some g ∈ m.frames.push (some f)) : some g ∈ m.frames ∨ g = f := by
    rcases Array.mem_push.mp hg with hg | hg
    · exact .inl hg
    · exact .inr (Option.some.inj hg)
  refine h.references rfl rfl (.of_eq b rfl rfl) rfl (fun place refers' => ?_)
    (fun place refers' => .inl ?_) (fun g hg => ?_) h.sound.paired
  · rw [Scene.refersTo_iff] at refers'
    rcases refers' with listed | uses | ⟨g, hg, rfl⟩
    · exact Scene.refersTo_iff.mpr (.inl listed)
    · exact Scene.refersTo_iff.mpr (.inr (.inl uses))
    · rcases mine g hg with hg | rfl
      · exact Scene.refersTo_iff.mpr (.inr (.inr ⟨g, hg, rfl⟩))
      · exact refers
  · rw [Scene.refersTo_iff] at refers' ⊢
    refine (refers'.resolve_right id).imp_right (Or.imp_right ?_)
    rintro ⟨g, hg, draws⟩
    exact ⟨g, Array.mem_push_of_mem _ hg, draws⟩
  · rcases mine g hg with hg | rfl
    · exact h.sound.frames g hg
    · exact inside

/-- A frame that is in nobody's hands is dropped. -/
theorem dropFrame {f : Frame} (h : InOrder b m₀ (· = f.pool) m) : Tidy b m₀ (m.dropFrame f) := by
  have released : InOrder b m₀ (· = f.pool) (m.release f.pool f.handle).2 := by
    refine h.silent (working_release m _ _).quiet ?_
    unfold release
    split <;> rfl
  unfold Machine.dropFrame
  split
  · next e =>
    rw [e] at released
    exact released.reapPool
  · next cause k e =>
    rw [e] at released
    exact (released.notice (n := .frameReleaseFailed cause) rfl).reapPool

/-- Its handle is detached, which is no reference. -/
theorem detachFrame {f : Frame} (h : InOrder b m₀ (· = f.pool) m) :
    Tidy b m₀ (m.detachFrame f) :=
  h.reapPool.undisturbed .elsewhere

/-! ### What stands over the adapters -/

/-- Something changes over the adapters, and only there. -/
theorem regroup {doubt' : Nat → Prop} (h : Tidy b m₀ m) (steady : Steady b m m')
    (same : m'.toScene = { m.toScene with
      adapter := m'.adapter
      tx := m'.tx
      rx := m'.rx
      arbiter := m'.arbiter
      engine := m'.engine
      aside := m'.aside }) (moments : m'.moments = m.moments)
    (fewer : ∀ a ∈ m'.assemblies, ∀ place, a.refersTo place = true → m.refersTo place = true)
    (rest : ∀ a ∈ m.assemblies, ∀ place, a.refersTo place = true →
      (∃ a' ∈ m'.assemblies, a'.refersTo place = true) ∨ m'.listsAt place = true ∨ doubt' place)
    (paired : ∀ a ∈ m'.assemblies, a.Paired) : InOrder b m₀ doubt' m' := by
  have pools : m'.pools = m.pools := by rw [same]
  have frames : m'.frames = m.frames := by rw [same]
  have journal : m'.journal = m.journal := by rw [same]
  have listed : m'.listsAt = m.listsAt := by
    funext place
    rw [Scene.listsAt, pools, Scene.listsAt]
  refine h.references journal moments steady (by rw [pools]) (fun place refers => ?_)
    (fun place refers => ?_) (frames ▸ h.sound.frames) paired
  · rw [Scene.refersTo_iff] at refers
    rcases refers with listed' | ⟨a, ha, uses⟩ | held
    · exact Scene.refersTo_iff.mpr (.inl (listed ▸ listed'))
    · exact fewer a ha place uses
    · exact Scene.refersTo_iff.mpr (.inr (.inr (frames ▸ held)))
  · have refers := refers.resolve_right id
    rw [Scene.refersTo_iff] at refers ⊢
    rcases refers with listed' | ⟨a, ha, uses⟩ | held
    · exact .inl (.inl (listed ▸ listed'))
    · rcases rest a ha place uses with uses | listed' | doubted
      · exact .inl (.inr (.inl uses))
      · exact .inl (.inl listed')
      · exact .inr doubted
    · exact .inl (.inr (.inr (frames ▸ held)))

/-- The parts over the adapter at work go. -/
theorem dropRings (h : Tidy b m₀ m) (idle : b.here = false) : Tidy b m₀ m.dropRings := by
  set gone : Machine := { m with engine := none, tx := none, rx := none, arbiter := none }
  have aside {a : Assembly} (ha : a ∈ m.aside) : a ∈ m.assemblies := mem_cons_of_mem _ ha
  have doubted : InOrder b m₀ (fun place => m.rx.map RxRing.pool = some place) gone := by
    refine h.regroup ⟨fun busy => absurd (idle.symm.trans busy) Bool.false_ne_true, fun _ _ => rfl,
      Nat.le_refl _⟩ rfl rfl (fun a ha place uses => ?_) (fun a ha place uses => ?_) fun a ha => ?_
    · rcases mem_cons.mp ha with rfl | ha
      · exact absurd uses Bool.false_ne_true
      · exact Scene.refersTo_iff.mpr (.inr (.inl ⟨a, aside ha, uses⟩))
    · rcases mem_cons.mp ha with rfl | ha
      · exact .inr (.inr ((h.sound.paired _ mem_cons_self).refersTo_iff.mp uses))
      · exact .inl ⟨a, mem_cons_of_mem _ ha, uses⟩
    · rcases mem_cons.mp ha with rfl | ha
      · exact nofun
      · exact h.sound.paired a (aside ha)
  unfold Machine.dropRings
  dsimp only
  split
  · next place draws =>
    have here : (fun i => m.rx.map RxRing.pool = some i) = (· = place) := by
      funext i
      rw [draws, Option.some_inj]
      exact propext eq_comm
    rw [here] at doubted
    exact doubted.reapPool
  · next none =>
    have nowhere : (fun i => m.rx.map RxRing.pool = some i) = fun _ => False := by
      funext i
      rw [none]
      exact propext ⟨nofun, False.elim⟩
    rw [nowhere] at doubted
    exact doubted

/-- An engine is dropped. -/
theorem dropEngine (h : Tidy b m₀ m) (idle : b.here = false) : Tidy b m₀ m.dropEngine := by
  rw [dropEngine_eq]
  refine dropRings ((h.undisturbed m.undisturbed_switchedOff).undisturbed ?_) idle
  unfold Machine.giveIf
  split
  · exact .give _ _
  · exact .refl _

/-- One more adapter is put aside, with nothing over it. -/
theorem annex (h : Tidy b m₀ m) (a : Adapter) : Tidy b m₀ (m.annex a) := by
  have inside {c : Assembly} (hc : c ∈ (m.annex a).assemblies) :
      c ∈ m.assemblies ∨ c = { adapter := a } := by
    rcases mem_cons.mp hc with rfl | hc
    · exact .inl mem_cons_self
    · rcases mem_append.mp hc with hc | hc
      · exact .inl (mem_cons_of_mem _ hc)
      · exact .inr (mem_singleton.mp hc)
  have steady : Steady b m (m.annex a) := by
    refine ⟨fun _ => rfl, fun j _ => ?_, ?_⟩
    · unfold drawsAside Machine.annex
      rw [getElem?_append]
      split
      · rfl
      · next outside =>
        rw [getElem?_eq_none (Nat.le_of_not_lt outside)]
        cases j - m.aside.length <;> rfl
    · unfold Machine.annex
      rw [length_append]
      exact Nat.le_add_right _ _
  refine h.regroup steady rfl rfl (fun c hc place uses => ?_) (fun c hc place uses => .inl ?_)
    fun c hc => ?_
  · rcases inside hc with hc | rfl
    · exact Scene.refersTo_iff.mpr (.inr (.inl ⟨c, hc, uses⟩))
    · exact absurd uses Bool.false_ne_true
  · refine ⟨c, ?_, uses⟩
    rcases mem_cons.mp hc with rfl | hc
    · exact mem_cons_self
    · exact mem_cons_of_mem _ (mem_append_left _ hc)
  · rcases inside hc with hc | rfl
    · exact h.sound.paired c hc
    · exact nofun

end InOrder

/-! ### Changing adapters -/

section Exchange

variable {j : Nat}

theorem toScene_exchange (m : Machine) (j : Nat) :
    (m.exchange j).toScene = { m.toScene with
      adapter := (m.exchange j).adapter
      tx := (m.exchange j).tx
      rx := (m.exchange j).rx
      arbiter := (m.exchange j).arbiter
      engine := (m.exchange j).engine
      aside := (m.exchange j).aside } := by
  unfold exchange
  split <;> rfl

theorem moments_exchange (m : Machine) (j : Nat) : (m.exchange j).moments = m.moments := by
  unfold exchange
  split <;> rfl

/-- Nothing is lost when adapters are changed. -/
theorem assemblies_exchange (m : Machine) (j : Nat) : (m.exchange j).assemblies ~ m.assemblies := by
  unfold exchange
  split
  · exact .refl _
  · next a there =>
    have swapped := List.getD_set_perm_cons m.aside j m.atWork
    rw [there, Option.getD_some] at swapped
    exact swapped

theorem length_aside_exchange (m : Machine) (j : Nat) :
    (m.exchange j).aside.length = m.aside.length := by
  unfold exchange
  split
  · rfl
  · exact length_set

/-- What was aside is at work, with its ring. -/
theorem rx_exchange (inside : j < m.aside.length) :
    (m.exchange j).rx.map RxRing.pool = m.drawsAside j := by
  unfold exchange drawsAside
  rw [getElem?_eq_getElem inside]
  rfl

/-- What was at work is aside, and everything else is where it was. -/
theorem drawsAside_exchange (inside : j < m.aside.length) (i : Nat) :
    (m.exchange j).drawsAside i = if i = j then m.rx.map RxRing.pool else m.drawsAside i := by
  unfold exchange drawsAside
  rw [getElem?_eq_getElem inside]
  dsimp only
  rw [getElem?_set]
  split
  · next here =>
    subst here
    rw [if_pos rfl]
    rfl
  · next other => rw [if_neg fun same => other same.symm]

theorem settled_exchange (h : m.toScene.Settled) (j : Nat) : (m.exchange j).toScene.Settled := by
  have same := m.toScene_exchange j
  have moved := m.assemblies_exchange j
  have refers (place : Nat) : (m.exchange j).refersTo place = true ↔ m.refersTo place = true := by
    have listed : (m.exchange j).listsAt = m.listsAt := by rw [same]; rfl
    have held : (m.exchange j).frames = m.frames := by rw [same]
    rw [Scene.refersTo_iff, Scene.refersTo_iff, listed, held]
    simp only [moved.mem_iff]
  refine h.of_references (fun out => ?_) (by rw [same]) (fun place => (refers place).mp)
    (fun place => Or.imp_left (refers place).mpr) (fun f => ?_) fun a ha => h.paired a (moved.mem_iff.mp ha)
  · rw [same]
    exact id
  · rw [same]
    exact h.frames f

/-- **While another adapter is at work, what has been put aside is left alone.** -/
theorem InOrder.elsewhere (h : Tidy b m₀ m) (inside : j < m.aside.length)
    (kept : Tidy (b.exchange j) (m.exchange j) (m.exchange j) →
      Tidy (b.exchange j) (m.exchange j) m') : Tidy b m₀ (m'.exchange j) := by
  obtain ⟨sound, orderly, steady⟩ := kept (.refl _ (settled_exchange h.sound j))
  have room := steady.room
  rw [length_aside_exchange] at room
  have inside' : j < m'.aside.length := Nat.lt_of_lt_of_le inside room
  refine ⟨settled_exchange sound j, h.orderly.trans ?_, h.steady.trans ⟨fun busy => ?_,
    fun i busy => ?_, by rwa [length_aside_exchange]⟩⟩
  · have first : m.Spans Scene.Orderly (m.exchange j) := .of_moments_eq _ (m.moments_exchange j)
    exact (first.trans orderly).trans (.of_moments_eq _ (m'.moments_exchange j))
  · have left := steady.aside j (by simpa [Busy.exchange] using busy)
    rw [drawsAside_exchange inside, if_pos rfl] at left
    rw [rx_exchange inside', left]
  · rw [drawsAside_exchange inside']
    split
    · next here =>
      subst here
      rw [steady.here (by simpa [Busy.exchange] using busy), rx_exchange inside]
    · next other =>
      have left := steady.aside i (by simpa [Busy.exchange, other] using busy)
      rw [left, drawsAside_exchange inside, if_neg other]

end Exchange

/-! ## Making pools and engines -/

section Create

variable {c : Config}

/-- **Making a pool** is to ask for its blocks.  If one is refused the others are given back. -/
theorem createPool_cases (settled : m.toScene.Settled) (count size align : Nat) :
    (∃ cause k, m.createPool count size align = (.error cause, k) ∧
      Dealing m (m.blocksOf m.livesAt) [] k) ∨
    ∃ p k, m.createPool count size align =
        (.ok m.pools.size, { k with pools := k.pools.push { pool := p } }) ∧
      Dealing m (m.blocksOf m.livesAt) p.addresses k := by
  have begun : Dealing m (m.blocksOf m.livesAt) [] m := .start settled.account
  unfold createPool
  split
  · exact .inl ⟨_, m, rfl, begun⟩
  · split
    · exact .inl ⟨_, m, rfl, begun⟩
    · next layout _ =>
      have granted := begun.allocateMany layout count
      generalize m.allocateMany layout count = grant at granted
      obtain ⟨addresses, k⟩ := grant
      dsimp only at granted ⊢
      split
      · exact .inl ⟨_, _, rfl, .freeAll _ (granted.give rfl)⟩
      · have pools : k.pools.size = m.pools.size := by
          obtain ⟨_, _, scene⟩ := granted.scene
          rw [scene]
        rw [pools]
        refine .inr ⟨.ofAddresses _ layout addresses, _, rfl, ?_⟩
        rw [BufferPool.addresses_ofAddresses]
        exact granted.give rfl

/-- The pools have as many blocks as they had. -/
theorem InOrder.dealt (h : Tidy b m₀ m) (dealt : Dealing m (m.blocksOf m.livesAt) [] m') :
    Tidy b m₀ m' := by
  obtain ⟨mem, j, scene⟩ := dealt.scene
  obtain ⟨out, accounts, perm⟩ := dealt.account
  have entered : m'.journal = j := by rw [scene]
  rw [entered] at accounts
  refine ⟨?_, h.orderly.trans (dealt.orderly h.sound (Scene.blocksOf_sublist h.sound.lives).subperm),
    h.steady.trans (dealt.steady b)⟩
  rw [scene]
  exact h.sound.recount mem ⟨out, accounts, perm⟩

/-- There is one more pool, which has the loose blocks. -/
theorem InOrder.found (h : Tidy b m₀ m) {p : BufferPool}
    (dealt : Dealing m (m.blocksOf m.livesAt) p.addresses m') :
    Tidy b m₀ { m' with pools := m'.pools.push { pool := p } } := by
  obtain ⟨mem, j, scene⟩ := dealt.scene
  obtain ⟨out, accounts, perm⟩ := dealt.account
  have entered : m'.journal = j := by rw [scene]
  rw [entered] at accounts
  have orderly := dealt.orderly h.sound (Scene.blocksOf_sublist h.sound.lives).subperm
  have steady := dealt.steady b
  refine ⟨?_, (h.orderly.trans orderly).trans (.of_moments_eq _ rfl),
    (h.steady.trans steady).trans (.of_eq b rfl rfl)⟩
  have founded := h.sound.found mem ⟨out, accounts, perm⟩
  rw [← scene] at founded
  exact founded

theorem InOrder.createPool (h : Tidy b m₀ m) (count size align : Nat) :
    Tidy b m₀ (m.createPool count size align).2 := by
  rcases createPool_cases h.sound count size align with ⟨_, k, made, dealt⟩ | ⟨p, k, made, dealt⟩
  · rw [made]
    exact h.dealt dealt
  · rw [made]
    exact h.found dealt

/-- A pool that cannot be made leaves no block behind. -/
theorem blocksOut_createPool (settled : m.toScene.Settled) (count size align : Nat)
    {cause : Refusal} (refused : (m.createPool count size align).1 = .error cause) :
    blocksOut (m.createPool count size align).2.journal.events.toList ~
      blocksOut m.journal.events.toList := by
  obtain ⟨out, accounts, perm⟩ := settled.account
  rcases createPool_cases settled count size align with ⟨_, k, made, dealt⟩ | ⟨p, k, made, -⟩
  · obtain ⟨out', accounts', perm'⟩ := dealt.account
    rw [made, accounts.out_eq, accounts'.out_eq]
    exact perm'.trans perm.symm
  · rw [made] at refused
    exact nomatch refused

/-- A ring is placed over the adapter at work, over a pool that is referred to. -/
theorem InOrder.placeRx (h : Tidy b m₀ m) (idle : b.here = false) (vacant : m.rx = none)
    (unowned : m.engine = none) {r : RxRing} (draws : m.refersTo r.pool = true)
    (tx : Option TxRing) (engine : Option Engine) (mine : ∀ e, engine = some e → e.pool = r.pool) :
    Tidy b m₀ { m with engine := engine, tx := tx, rx := some r } := by
  have paired : Assembly.Paired { m.atWork with engine := engine, tx := tx, rx := some r } := by
    intro e owned
    rw [mine e owned]
    rfl
  refine h.regroup ⟨fun busy => absurd (idle.symm.trans busy) Bool.false_ne_true, fun _ _ => rfl,
    Nat.le_refl _⟩ rfl rfl (fun a ha place uses => ?_) (fun a ha place uses => ?_) fun a ha => ?_
  · rcases mem_cons.mp ha with rfl | ha
    · obtain rfl : r.pool = place := Option.some.inj (paired.refersTo_iff.mp uses)
      exact draws
    · exact Scene.refersTo_iff.mpr (.inr (.inl ⟨a, mem_cons_of_mem _ ha, uses⟩))
  · rcases mem_cons.mp ha with rfl | ha
    · unfold Assembly.refersTo Scene.atWork at uses
      rw [vacant, unowned] at uses
      exact absurd uses Bool.false_ne_true
    · exact .inl ⟨a, mem_cons_of_mem _ ha, uses⟩
  · rcases mem_cons.mp ha with rfl | ha
    · exact paired
    · exact h.sound.paired a (mem_cons_of_mem _ ha)

theorem undisturbed_createArbiter (m : Machine) : m.Undisturbed m.createArbiter := by
  have written : Working .irq True (fun _ _ => False) m (m.write .irqEnable 0) := .write m rfl 0
  exact (written.undisturbed fun _ => trivial).trans .elsewhere

theorem InOrder.createEngine (h : Tidy b m₀ m) (idle : b.here = false) (vacant : m.rx = none)
    (unowned : m.engine = none) (c : Config) : Tidy b m₀ (m.createEngine c).2 := by
  unfold Machine.createEngine
  split
  · exact h
  · rcases createPool_cases h.sound c.bufferCount c.bufferSize c.bufferAlign with
      ⟨_, k, made, dealt⟩ | ⟨p, k, made, dealt⟩
    · rw [made]
      exact h.dealt dealt
    · rw [made]
      have founded := h.found dealt
      obtain ⟨mem, j, scene⟩ := dealt.scene
      have kept : k.rx = m.rx ∧ k.engine = m.engine ∧ k.pools = m.pools := by
        rw [scene]
        exact ⟨rfl, rfl, rfl⟩
      dsimp only
      split
      · exact founded.dropPool _
      · next tx rx rings =>
        obtain ⟨-, new⟩ := createRings_eq_ok rings
        obtain ⟨-, draws, -⟩ := RxRing.holds_create new
        have listed : Scene.refersTo
            { k with pools := k.pools.push { pool := p } }.toScene rx.pool = true := by
          rw [draws, ← kept.2.2]
          refine (Scene.refersTo_found k.toScene p _).trans ?_
          rw [beq_iff_eq.mpr rfl, Bool.true_or]
        have placed := founded.placeRx idle (kept.1.trans vacant) (kept.2.1.trans unowned) listed
          (some tx) (some ⟨c, m.pools.size⟩) fun e owned => by
            rw [← Option.some.inj owned, draws]
        exact (placed.undisturbed (undisturbed_createArbiter _)).undisturbed (.give _ _)

/-- Taking a pool down changes no reference. -/
theorem refersTo_reapPool (m : Machine) (place : Nat) :
    (m.reapPool place).pools.size = m.pools.size ∧
      (m.reapPool place).blocksAt = m.blocksAt ∧
      (m.reapPool place).refersTo = m.refersTo := by
  refine keeps_reapPool (P := fun k => k.pools.size = m.pools.size ∧
    k.toScene.blocksAt = m.toScene.blocksAt ∧ k.toScene.refersTo = m.toScene.refersTo) ?_ ?_ ?_
    ⟨rfl, rfl, rfl⟩ place
  · intro k n h
    obtain ⟨j, scene⟩ := exists_toScene_give k n
    rw [scene]
    exact h
  · intro k a h
    rw [free, toScene_record]
    exact h
  · rintro k place ⟨size, blocks, refers⟩
    exact ⟨(Array.size_modify ..).trans size, (k.blocksAt_bury place).trans blocks,
      (funext (k.refersTo_bury place)).trans refers⟩

/-- A pool that is dropped as soon as it was made leaves no block behind. -/
theorem blocksOut_dropPool_found (settled : m.toScene.Settled) {p : BufferPool} {k : Machine}
    (dealt : Dealing m (m.blocksOf m.livesAt) p.addresses k) :
    blocksOut ({ k with pools := k.pools.push { pool := p } }.dropPool
        m.pools.size).journal.events.toList ~
      blocksOut m.journal.events.toList := by
  have founded : Tidy {} m { k with pools := k.pools.push { pool := p } } :=
    (InOrder.refl {} settled).found dealt
  have gone := (founded.dropPool m.pools.size).sound
  obtain ⟨mem, j, scene⟩ := dealt.scene
  set t : Scene := { m.toScene with memory := mem, journal := j }
  set unlisted : Machine :=
    { k with pools := (k.pools.push { pool := p }).modify m.pools.size fun e =>
        { e with listed := false } }
  have view : unlisted.toScene = (t.found p).relist m.pools.size false := by
    rw [← scene]
    rfl
  obtain ⟨size, blocks, refers⟩ := refersTo_reapPool unlisted m.pools.size
  have size' : unlisted.pools.size = m.pools.size + 1 := by
    rw [view, Scene.relist, Scene.found, Array.size_modify, Array.size_push]
  have nobody : unlisted.refersTo m.pools.size = false := by
    rw [Bool.eq_false_iff, Ne, view, Scene.refersTo_iff, Scene.listsAt_relist, if_pos rfl]
    intro refers
    refine Nat.lt_irrefl _ (Scene.lt_of_livesAt (settled.lives _ (Scene.refersTo_iff.mpr ?_)))
    refine refers.imp_left fun listed => ?_
    obtain ⟨_, -, none⟩ := (Option.any_eq_true _ _).mp listed
    exact absurd none Bool.false_ne_true
  have same : (unlisted.reapPool m.pools.size).blocksOf (unlisted.reapPool m.pools.size).refersTo =
      m.blocksOf m.refersTo := by
    rw [refers, Scene.blocksOf_succ (s := m.toScene) m.refersTo (size.trans size')
      (fun i inside => ?_) fun i inside => ?_, nobody]
    · exact append_nil _
    · rw [blocks, view]
      refine (congrFun (Scene.blocksAt_relist _ _ _) i).trans ?_
      rw [Scene.blocksAt_found, if_neg (Nat.ne_of_lt inside)]
      rfl
    · rw [view, Scene.refersTo_relist_of_ne _ _ (Nat.ne_of_gt inside), Scene.refersTo_found,
        beq_eq_false_iff_ne.mpr (Nat.ne_of_lt inside)]
      rfl
  have dropped : { k with pools := k.pools.push { pool := p } }.dropPool m.pools.size =
      unlisted.reapPool m.pools.size := rfl
  have perm := gone.perm
  rw [dropped] at perm ⊢
  rw [same] at perm
  exact perm.trans settled.perm.symm

/-- An engine that cannot be made leaves no block behind. -/
theorem blocksOut_createEngine (settled : m.toScene.Settled) {cause : Refusal}
    (refused : (m.createEngine c).1 = .error cause) :
    blocksOut (m.createEngine c).2.journal.events.toList ~ blocksOut m.journal.events.toList := by
  unfold Machine.createEngine at refused ⊢
  split
  · exact .refl _
  · next valid =>
    rw [valid] at refused
    dsimp only at refused
    rcases createPool_cases settled c.bufferCount c.bufferSize c.bufferAlign with
      ⟨_, k, made, dealt⟩ | ⟨p, k, made, dealt⟩
    · have refused' : (m.createPool c.bufferCount c.bufferSize c.bufferAlign).1 = .error _ :=
        congrArg Prod.fst made
      have unmade := blocksOut_createPool settled _ _ _ refused'
      rw [made] at unmade ⊢
      exact unmade
    · rw [made] at refused ⊢
      dsimp only at refused ⊢
      split
      · exact blocksOut_dropPool_found settled dealt
      · next rings =>
        rw [rings] at refused
        exact nomatch refused

end Create

end Machine

end DescriptorRings
