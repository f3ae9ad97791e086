import DescriptorRings.Proofs.Transmit.Guard

/-!
# The descriptors in flight

A transmit ring keeps four numbers about its descriptors: how many packets the posting walk has
passed, where the last descriptor of each of them lies, where the next descriptor goes, and which is
the oldest one not given back.  None of them says whose descriptor lies in a slot.  This file proves
that they fit together after any run, whatever the adapter answers: the posted packets cover the
counters from `reclaim` up to `producer` without a gap, and in the slots of these counters lie their
descriptors, in order.

## Two halves of one invariant

`TxSound` is about the ring alone, and the first part of the file follows it through each thing that
a step does to the ring.  Nothing there depends on the adapter, so the guard of a lawful adapter
uses the same lemmas.  `TxFlight` adds the table of descriptors, and what a point has to know.

Only two points have to know anything.  Before the ring is placed at a new counter there must be
nothing in flight; and whoever sees a ring that is being emptied must see that it is cancelled,
since the ring does not follow its window then.
-/

namespace DescriptorRings

open Relation List TxRing

variable {x x' : TxPoint} {m m' : Machine} {r r' : TxRing} {b : Counter} {ts : List TxPost}

/-- The last post of a walk is written. -/
theorem TxPoint.laid_walking (w : Walk) (done : List TxPost) (t : TxPost) (todo : List TxPost) :
    (TxPoint.walking w (done ++ [t]) todo).laid =
      (TxPoint.writing w done t todo t.packet.fragmentCount).laid := by
  have whole : t.packet.descriptors.take t.packet.fragmentCount = t.packet.descriptors := by
    rw [← Packet.length_descriptors, take_length]
  show lay (done ++ [t]) = lay done ++ t.packet.descriptors.take t.packet.fragmentCount
  rw [whole, lay_append, lay_cons, lay_nil, append_nil]

/-! ## What a step does to the ring -/

namespace TxSound

/-- The request goes on to another point. -/
theorem goto (h : TxSound x r b ts) (based : b = r.reclaim)
    (walk : ∀ w, x'.walk? = Option.some w → w.posts = x'.fresh ++ x'.todo) :
    TxSound x' r b ts :=
  ⟨h.tiled, h.fits, .inr based, h.some, walk⟩

/-- Packets that no walk has reached may come and go. -/
theorem adjust (h : TxSound x r b ts) (size : r'.size = r.size) (passed : r'.passed = r.passed)
    (producer : r'.producer = r.producer) (reclaim : r'.reclaim = r.reclaim)
    (some : ∀ p ∈ r'.waiting ++ r'.intake.toList, 0 < p.fragmentCount) : TxSound x r' b ts := by
  refine ⟨?_, ?_, ?_, some, h.walk⟩
  · rw [passed, producer]
    exact h.tiled
  · rw [capacity, size]
    exact h.fits
  · rw [reclaim]
    exact h.based

theorem accept (h : TxSound x r b ts) {p : Packet} (free : r.refusal? p = none) :
    TxSound x (r.accept p) b ts := by
  refine h.adjust rfl rfl rfl rfl fun q hq => ?_
  rw [TxRing.accept, Array.toList_push, ← append_assoc] at hq
  rcases mem_append.mp hq with hq | hq
  · exact h.some q hq
  · rw [mem_singleton.mp hq]
    exact (refusal?_eq_none_iff.mp free).1

theorem collect (h : TxSound x r b ts) : TxSound x r.collect b ts := by
  refine h.adjust rfl rfl rfl rfl fun p hp => h.some p ?_
  have same : r.collect.waiting ++ r.collect.intake.toList = r.waiting ++ r.intake.toList :=
    append_nil _
  rwa [same] at hp

/-- With nothing in flight the ring may begin anywhere. -/
theorem begin (h : TxSound x r b []) (c : Counter) : TxSound (.placed c) (r.begin c) c [] :=
  ⟨h.tiled.rebase c, h.fits, .inr rfl, h.some, TxPoint.no_walk rfl⟩

/-- Marking packets does not move them. -/
theorem cancel (h : TxSound x r b ts) (based : b = r.reclaim) :
    TxSound .idle r.cancel b (ts.map TxPost.ignore) := by
  refine ⟨h.tiled.map_ignore, ?_, .inr based, ?_, TxPoint.no_walk rfl⟩
  · rw [load_map_ignore]
    exact h.fits
  · intro p hp
    rcases mem_append.mp hp with hp | hp
    · obtain ⟨q, hq, rfl⟩ := mem_map.mp hp
      exact h.some q (mem_append_left _ hq)
    · exact h.some p (mem_append_right _ hp)

/-- **A descriptor is written right behind those that lie there**, where there is room. -/
theorem next_place {w : Walk} {done todo : List TxPost} {t : TxPost} {k : Nat}
    (h : TxSound (.writing w done t todo k) r b ts) (based : b = r.reclaim)
    (surveyed : r.postingWalk = w) {slot : Nat} {d : TxDescriptor}
    (next : (t.writes r.size)[k]? = Option.some (slot, d)) :
    (TxPoint.writing w done t todo (k + 1)).laid = (TxPoint.writing w done t todo k).laid ++ [d] ∧
      (lay ts ++ (TxPoint.writing w done t todo k).laid).length < r.size.slots ∧
      slot = (b.advance (lay ts ++ (TxPoint.writing w done t todo k).laid).length).slot
        r.size.slots := by
  obtain ⟨tiled, fits, -, -⟩ := h.postingWalk based
  have posts : r.postingWalk.posts = done ++ t :: todo := by
    rw [surveyed, h.walk w rfl]
    exact (append_cons _ _ _).symm
  rw [posts] at tiled fits
  rw [load_append, load_cons] at fits
  have inside : k < t.packet.fragmentCount := by
    rw [← TxPost.length_writes t r.size]
    exact (List.getElem?_eq_some_iff.mp next).1
  rw [TxPost.writes, getElem?_mapIdx, Option.map_eq_some_iff] at next
  obtain ⟨d', hd, hw⟩ := next
  obtain ⟨rfl, rfl⟩ := Prod.mk.inj hw
  have length : (lay ts ++ (TxPoint.writing w done t todo k).laid).length =
      load ts + load done + k := by
    rw [TxPoint.laid, length_append, length_append, length_lay, length_lay, length_take,
      Packet.length_descriptors, Nat.min_eq_left inside.le, Nat.add_assoc]
  refine ⟨?_, ?_, ?_⟩
  · rw [TxPoint.laid, take_add_one, hd, TxPoint.laid, append_assoc]
    rfl
  · have := r.size.capacity_lt
    unfold capacity at fits
    omega
  · rw [length, tiled.first_eq, h.tiled.eq_advance_load, Counter.advance_advance,
      Counter.advance_advance, Nat.add_assoc]

/-- **The ring takes over what a walk has posted**: it is not marked, and it fits. -/
theorem adopt {w : Walk} {done : List TxPost} (h : TxSound (.walking w done []) r b ts)
    (based : b = r.reclaim) (surveyed : r.postingWalk = w) :
    TxSound (.walked w) (r.afterWalk w) b (ts ++ done) ∧ Tiled r.producer w.passed done w.producer ∧
      w.written = load done ∧ ∀ t ∈ done, t.packet.ignored = false := by
  obtain ⟨tiled, fits, unmarked, waiting⟩ := h.postingWalk based
  have posts : w.posts = done := (h.walk w rfl).trans (append_nil done)
  rw [surveyed, posts] at tiled fits unmarked
  rw [surveyed] at waiting
  refine ⟨⟨h.tiled.append tiled, ?_, .inr based, ?_, TxPoint.no_walk rfl⟩, tiled, ?_, unmarked⟩
  · rw [load_append]
    exact fits
  · intro p hp
    rcases mem_append.mp hp with hp | hp
    · exact h.some p (mem_append_left _ (waiting p hp))
    · exact h.some p (mem_append_right _ hp)
  · rw [w.written_eq_load, posts]

/-- A skipped packet leaves the window as it is. -/
theorem skipped {p : Packet} {rest : List TxEntry} (h : TxSound x r b ts)
    (passed : r.passed = ⟨p, none⟩ :: rest) :
    p.ignored = true ∧ TxSound x { r with passed := rest } b ts := by
  have tiled := h.tiled
  rw [passed] at tiled
  cases tiled with
  | skip ignored tiled => exact ⟨ignored, tiled, h.fits, h.based, h.some, h.walk⟩

/-- **A posted packet leaves the window at its front.**  The window begins anew where its
descriptors end. -/
theorem posted {p : Packet} {last : Counter} {rest : List TxEntry} (h : TxSound x r b ts)
    (passed : r.passed = ⟨p, Option.some last⟩ :: rest) :
    ∃ ts', ts = ⟨p, b⟩ :: ts' ∧ last = TxPost.last ⟨p, b⟩ ∧
      last.advance 1 = b.advance p.fragmentCount ∧
      Tiled (last.advance 1) rest ts' r.producer ∧ load ts' ≤ r.capacity := by
  have tiled := h.tiled
  rw [passed] at tiled
  cases tiled with
  | @post _ _ _ _ ts' some tiled =>
    have next : (TxPost.last ⟨p, b⟩).advance 1 = b.advance p.fragmentCount :=
      TxPost.last_advance_one ⟨p, b⟩
    refine ⟨ts', rfl, rfl, next, ?_, Nat.le_trans (Nat.le_add_left _ _) h.fits⟩
    rw [next]
    exact tiled

/-- While the ring is emptied, the window shrinks from its front. -/
theorem surrender {p : Packet} (h : TxSound .draining r b ts)
    (next : r.takeOldest? = Option.some (p, r')) :
    ∃ gone ts', ts = gone ++ ts' ∧ r'.size = r.size ∧ r'.phase = r.phase ∧
      TxSound .draining r' (b.advance (load gone)) ts' := by
  rcases takeOldest?_eq_some_iff.mp next with
    ⟨⟨q, last⟩, rest, passed, -, rfl⟩ | ⟨rest, passed, waiting, rfl⟩
  · cases last with
    | none =>
      refine ⟨[], ts, rfl, rfl, rfl, ?_⟩
      rw [load_nil, Counter.advance_zero]
      exact (h.skipped passed).2
    | some last =>
      obtain ⟨ts', rfl, -, place, tiled, fits⟩ := h.posted passed
      refine ⟨[⟨q, b⟩], ts', rfl, rfl, rfl, ?_, fits, .inl rfl, h.some, TxPoint.no_walk rfl⟩
      rw [place] at tiled
      exact tiled
  · refine ⟨[], ts, rfl, rfl, rfl, ?_⟩
    rw [load_nil, Counter.advance_zero]
    refine ⟨h.tiled, h.fits, .inl rfl, fun q hq => h.some q ?_, TxPoint.no_walk rfl⟩
    rw [waiting]
    exact mem_cons_of_mem p hq

/-- An empty ring has an empty window, and may say so. -/
theorem abandon (h : TxSound x r b ts) (empty : r.queue = []) :
    ts = [] ∧ TxSound .idle r.abandon b ts := by
  have passed : r.passed = [] := map_eq_nil_iff.mp (append_eq_nil_iff.mp empty).1
  have tiled := h.tiled
  rw [passed] at tiled
  have ends : ts = [] ∧ b = r.producer := by
    generalize r.producer = e at tiled
    cases tiled
    exact ⟨rfl, rfl⟩
  exact ⟨ends.1, h.tiled, h.fits, .inr ends.2, h.some, TxPoint.no_walk rfl⟩

end TxSound

/-! ## The window and its slots -/

/-- What is known at a point whatever the adapter does. -/
def TxPoint.Reached (r : TxRing) (ts : List TxPost) : TxPoint → Prop
  | .starting _ => ts = []
  | .draining => r.phase = .cancelled
  | _ => True

/-- A window that begins at `b` and holds the posts `ts`, with their descriptors in its slots. -/
structure TxFlight (x : TxPoint) (m : Machine) (r : TxRing) (b : Counter) (ts : List TxPost) :
    Prop where
  /-- The ring in question. -/
  tx : m.tx = some r
  /-- The ring is sound. -/
  sound : TxSound x r b ts
  /-- The descriptors of the window lie in its slots, and the written ones of a walk behind them. -/
  table : Counter.Spread r.size m.adapter.txTable.get? b (lay ts ++ x.laid)
  /-- What the point has to know. -/
  reached : x.Reached r ts
  /-- No posted packet is marked before the ring is cancelled. -/
  unmarked : r.phase ≠ .cancelled → ∀ t ∈ ts, t.packet.ignored = false

namespace TxFlight

/-- The ring knows where the window begins, except while it is emptied. -/
theorem based (h : TxFlight x m r b ts) (idle : x ≠ .draining) : b = r.reclaim :=
  h.sound.based.resolve_left idle

/-- Whatever leaves the ring and the descriptors alone leaves the window alone. -/
theorem elsewhere (h : TxFlight x m r b ts) (tx : m'.tx = m.tx)
    (table : m'.adapter.txTable = m.adapter.txTable) : TxFlight x m' r b ts := by
  refine ⟨tx.trans h.tx, h.sound, ?_, h.reached, h.unmarked⟩
  rw [table]
  exact h.table

theorem recorded (h : TxFlight x m r b ts) (e : Event) : TxFlight x (m.record e) r b ts :=
  h.elsewhere (Machine.tx_record m e) (by rw [Machine.toScene_record])

theorem poked (h : TxFlight x m r b ts) (reg : Register) (v : UInt32) :
    TxFlight x (m.poke reg v) r b ts := by
  refine h.elsewhere (Machine.tx_record _ _) ?_
  rw [Machine.toScene_poke]
  exact Adapter.txTable_write _ _ _

/-- The request goes on to a point that adds the same. -/
theorem goto (h : TxFlight x m r b ts) (idle : x ≠ .draining) (laid : x'.laid = x.laid)
    (walk : ∀ w, x'.walk? = some w → w.posts = x'.fresh ++ x'.todo) (reached : x'.Reached r ts) :
    TxFlight x' m r b ts := by
  refine ⟨h.tx, h.sound.goto (h.based idle) walk, ?_, reached, h.unmarked⟩
  rw [laid]
  exact h.table

/-- The ring changes and its window does not. -/
theorem adjust (h : TxFlight x m r b ts) (sound : TxSound x r' b ts) (size : r'.size = r.size)
    (phase : r'.phase = r.phase) : TxFlight x (m.setTx r') r' b ts := by
  refine ⟨rfl, sound, ?_, ?_, ?_⟩
  · rw [size]
    exact h.table
  · have reached := h.reached
    cases x with
    | starting => exact reached
    | draining => exact phase.trans reached
    | idle | placed | aligned | silenced | walking | writing | walked | reclaiming => trivial
  · rw [phase]
    exact h.unmarked

/-! ## Starting and cancelling -/

theorem look (h : TxFlight .idle m r b ts) (clear : r.inFlight = 0) (c : Counter) :
    TxFlight (.starting c) m r b ts := by
  have based := h.based TxPoint.noConfusion
  exact h.goto TxPoint.noConfusion rfl (TxPoint.no_walk rfl)
    (h.sound.eq_nil_of_inFlight based clear)

theorem place {c : Counter} (h : TxFlight (.starting c) m r b ts) :
    TxFlight (.placed c) (m.setTx (r.begin c)) (r.begin c) c [] := by
  obtain rfl : ts = [] := h.reached
  exact ⟨rfl, h.sound.begin c, .nil _ _ _, trivial, fun _ t ht => absurd ht not_mem_nil⟩

theorem mark (h : TxFlight .silenced m r b ts) :
    TxFlight .idle (m.setTx r.cancel) r.cancel b (ts.map TxPost.ignore) := by
  refine ⟨rfl, h.sound.cancel (h.based TxPoint.noConfusion), ?_, trivial, fun live => ?_⟩
  · rw [lay_map_ignore]
    exact h.table
  · exact absurd rfl live

/-! ## Posting -/

section Walking

variable {w : Walk} {done todo : List TxPost} {t : TxPost} {k : Nat}

theorem survey (h : TxFlight .idle m r b ts) :
    TxFlight (.walking r.postingWalk [] r.postingWalk.posts) m r b ts := by
  refine h.goto TxPoint.noConfusion rfl (fun w hw => ?_) trivial
  obtain rfl := Option.some.inj hw
  rfl

theorem announce (h : TxFlight (.walking w done (t :: todo)) m r b ts) :
    TxFlight (.writing w done t todo 0) m r b ts := by
  have laid : (TxPoint.writing w done t todo 0).laid = lay done := append_nil _
  refine h.goto TxPoint.noConfusion laid (fun v hv => ?_) trivial
  rw [h.sound.walk v hv]
  exact append_cons _ _ _

/-- **No descriptor is written into a slot of the window.** -/
theorem write (h : TxFlight (.writing w done t todo k) m r b ts) (surveyed : r.postingWalk = w)
    {slot : Nat} {d : TxDescriptor} (next : (t.writes r.size)[k]? = some (slot, d)) :
    TxFlight (.writing w done t todo (k + 1)) (m.pokeTx slot d) r b ts := by
  have based := h.based TxPoint.noConfusion
  refine ⟨(Machine.tx_record _ _).trans h.tx, h.sound.goto based h.sound.walk, ?_, trivial,
    h.unmarked⟩
  obtain ⟨laid, room, place⟩ := h.sound.next_place based surveyed next
  rw [Machine.toScene_pokeTx, laid, ← append_assoc]
  refine h.table.concat room ?_ fun s hs => SlotTable.get?_set_of_ne _ ?_ _
  · rw [← place]
    exact SlotTable.get?_set_self _ _ _
  · rw [place]
    exact hs

theorem written (h : TxFlight (.writing w done t todo t.packet.fragmentCount) m r b ts) :
    TxFlight (.walking w (done ++ [t]) todo) m r b ts :=
  h.goto TxPoint.noConfusion (TxPoint.laid_walking w done t todo) h.sound.walk trivial

theorem adopt (h : TxFlight (.walking w done []) m r b ts) (surveyed : r.postingWalk = w) :
    TxFlight (.walked w) (m.setTx (r.afterWalk w)) (r.afterWalk w) b (ts ++ done) := by
  obtain ⟨sound, -, -, unmarked⟩ := h.sound.adopt (h.based TxPoint.noConfusion) surveyed
  refine ⟨rfl, sound, ?_, trivial, fun live t ht => ?_⟩
  · have laid : lay (ts ++ done) ++ (TxPoint.walked w).laid =
        lay ts ++ (TxPoint.walking w done []).laid :=
      (append_nil _).trans (lay_append ts done)
    rw [laid]
    exact h.table
  · rcases mem_append.mp ht with ht | ht
    · exact h.unmarked live t ht
    · exact unmarked t ht

end Walking

/-! ## Handing back -/

theorem complete {n : Nat} {p : Packet} (h : TxFlight (.reclaiming n) m r b ts)
    (next : r.takeDone? n = some (p, r')) :
    ∃ b' ts', TxFlight (.reclaiming n) ((m.setTx (r'.settle p)).record (.completed p))
      (r'.settle p) b' ts' := by
  rcases takeDone?_eq_some_iff.mp next with
    ⟨rest, passed, rfl⟩ | ⟨last, rest, passed, -, rfl⟩
  · obtain ⟨-, sound⟩ := h.sound.skipped passed
    have taken : TxFlight (.reclaiming n) (m.setTx ({ r with passed := rest }.settle p))
        ({ r with passed := rest }.settle p) b ts :=
      h.adjust (sound.adjust rfl rfl rfl rfl sound.some) rfl rfl
    exact ⟨b, ts, taken.recorded _⟩
  · obtain ⟨ts', rfl, -, place, tiled, fits⟩ := h.sound.posted passed
    refine ⟨last.advance 1, ts', Machine.tx_record _ _, ?_, ?_, trivial, fun live t ht => ?_⟩
    · exact ⟨tiled, fits, .inr rfl, h.sound.some, TxPoint.no_walk rfl⟩
    · have table := h.table
      rw [lay_cons, append_assoc] at table
      rw [Machine.toScene_record, place, ← Packet.length_descriptors]
      exact table.drop
    · exact h.unmarked live t (mem_cons_of_mem _ ht)

theorem surrender {p : Packet} (h : TxFlight .draining m r b ts)
    (next : r.takeOldest? = some (p, r')) :
    ∃ b' ts', TxFlight .draining ((m.setTx (r'.settle p.ignore)).record (.completed p.ignore))
      (r'.settle p.ignore) b' ts' := by
  obtain ⟨gone, ts', rfl, size, phase, sound⟩ := h.sound.surrender next
  have cancelled : r'.phase = .cancelled := phase.trans h.reached
  refine ⟨b.advance (load gone), ts', Machine.tx_record _ _, ?_, ?_, cancelled,
    fun live => absurd cancelled live⟩
  · exact sound.adjust rfl rfl rfl rfl sound.some
  · have table := h.table
    rw [lay_append, append_assoc] at table
    rw [Machine.toScene_record, TxRing.settle, size, ← length_lay]
    exact table.drop

theorem abandon (h : TxFlight .draining m r b ts) (empty : r.queue = []) :
    TxFlight .idle (m.setTx r.abandon) r.abandon b ts := by
  obtain ⟨rfl, sound⟩ := h.sound.abandon empty
  exact ⟨rfl, sound, h.table, trivial, fun _ t ht => absurd ht not_mem_nil⟩

end TxFlight

/-! ## Every step -/

/-- The window of a machine, whatever it is. -/
def TxFlying (c : TxPoint × Machine) : Prop := ∃ r b ts, TxFlight c.1 c.2 r b ts

/-- **Every step moves the window as it moves the ring.** -/
theorem TxFlying.step {permits : Move → Prop} (c c' : TxPoint × Machine) (step : TxStep permits c c')
    (surveyed : Surveyed c) (h : TxFlying c) : TxFlying c' := by
  obtain ⟨r, b, ts, h⟩ := h
  have ring {q : TxRing} (tx : c.2.tx = some q) : q = r := Option.some.inj (tx.symm.trans h.tx)
  cases step
  case plan => exact ⟨r, b, ts, h.tx, h.sound, h.table, h.reached, h.unmarked⟩
  case move =>
    refine ⟨r, b, ts, h.elsewhere (Machine.tx_move _ _) ?_⟩
    rw [Machine.toScene_move]
    exact Adapter.txTable_move _ _
  case elsewhere apart => exact ⟨r, b, ts, h.elsewhere apart.tx apart.table⟩
  case note => exact ⟨r, b, ts, h.recorded _⟩
  case accept q p tx free =>
    obtain rfl := ring tx
    exact ⟨_, b, ts, (h.adjust (h.sound.accept free) rfl rfl).recorded _⟩
  case look q tx clear =>
    obtain rfl := ring tx
    exact ⟨q, b, ts, (h.look clear _).recorded _⟩
  case place c q tx =>
    obtain rfl := ring tx
    exact ⟨_, _, _, h.place⟩
  case align =>
    exact ⟨r, b, ts, (h.poked _ _).goto TxPoint.noConfusion rfl (TxPoint.no_walk rfl) trivial⟩
  case switchOn =>
    exact ⟨r, b, ts, (h.poked _ _).goto TxPoint.noConfusion rfl (TxPoint.no_walk rfl) trivial⟩
  case switchOff =>
    exact ⟨r, b, ts, (h.poked _ _).goto TxPoint.noConfusion rfl (TxPoint.no_walk rfl) trivial⟩
  case mark q tx =>
    obtain rfl := ring tx
    exact ⟨_, b, _, h.mark⟩
  case collect q tx =>
    obtain rfl := ring tx
    exact ⟨_, b, ts, h.adjust h.sound.collect rfl rfl⟩
  case survey q tx running =>
    obtain rfl := ring tx
    exact ⟨q, b, ts, h.survey⟩
  case announce => exact ⟨r, b, ts, h.announce.recorded _⟩
  case write q tx next =>
    obtain rfl := ring tx
    exact ⟨q, b, ts, h.write (surveyed _ q rfl tx) next⟩
  case written => exact ⟨r, b, ts, h.written⟩
  case adopt q tx =>
    obtain rfl := ring tx
    exact ⟨_, b, _, h.adopt (surveyed _ q rfl tx)⟩
  case ring =>
    exact ⟨r, b, ts, (h.poked _ _).goto TxPoint.noConfusion rfl (TxPoint.no_walk rfl) trivial⟩
  case quiet => exact ⟨r, b, ts, h.goto TxPoint.noConfusion rfl (TxPoint.no_walk rfl) trivial⟩
  case read q tx running =>
    exact ⟨r, b, ts, (h.recorded _).goto TxPoint.noConfusion rfl (TxPoint.no_walk rfl) trivial⟩
  case doubt c q tx =>
    obtain rfl := ring tx
    obtain ⟨n, hn⟩ := exists_noteReading_eq q c
    rw [hn]
    exact ⟨_, b, ts, h.adjust (h.sound.adjust rfl rfl rfl rfl h.sound.some) rfl rfl⟩
  case complete q q' tx next =>
    obtain rfl := ring tx
    exact ⟨_, h.complete next⟩
  case stop => exact ⟨r, b, ts, h.goto TxPoint.noConfusion rfl (TxPoint.no_walk rfl) trivial⟩
  case drain q tx cancelled =>
    obtain rfl := ring tx
    exact ⟨q, b, ts, h.goto TxPoint.noConfusion rfl (TxPoint.no_walk rfl) cancelled⟩
  case surrender q q' tx next =>
    obtain rfl := ring tx
    exact ⟨_, h.surrender next⟩
  case abandon q tx empty =>
    obtain rfl := ring tx
    exact ⟨_, b, ts, h.abandon empty⟩

/-- A new ring has an empty window. -/
theorem TxFlying.create {slots depth : Nat} {m : Machine} {r : TxRing}
    (made : TxRing.create slots depth = .ok r) (tx : m.tx = some r) : TxFlying (.idle, m) := by
  obtain ⟨size, -, rfl⟩ := TxRing.create_eq_ok made
  refine ⟨_, 0, [], tx, ?_, .nil _ _ _, trivial, fun _ t ht => absurd ht not_mem_nil⟩
  exact ⟨.nil 0, Nat.zero_le _, .inr rfl, fun p hp => absurd hp not_mem_nil, TxPoint.no_walk rfl⟩

theorem TxFlying.new {slots depth : Nat} {m : Machine} (new : m.NewTx slots depth) :
    TxFlying (.idle, m) := by
  obtain ⟨r, made, tx⟩ := new.made
  exact .create made tx

/-! ## What the window comes to -/

namespace TxRing

/-- The packets past the intake as one queue, each with the counter of its last descriptor once it
is posted. -/
def entries (r : TxRing) : List TxEntry := r.passed ++ r.waiting.map fun p => ⟨p, none⟩

/-- **The representation of a transmit ring**: what its counters say about the slots is so.  Two lists
cannot fail `reached` and `unreached`; of one deque with an index they are proved in
`Proofs/Transmit/Deque`. -/
structure Tiles (r : TxRing) (table : Nat → Option TxDescriptor) (ts : List TxPost) : Prop where
  /-- The walk has passed packets of the queue only. -/
  reached : r.passed.length ≤ r.entries.length
  /-- What the walk has not passed has no descriptors. -/
  unreached : ∀ e ∈ r.entries.drop r.passed.length, e.last = none
  /-- What the walk has passed covers the counters in flight: each packet that was posted covers one
  for each of its fragments, and its last descriptor is where the queue says. -/
  tiled : Tiled r.reclaim (r.entries.take r.passed.length) ts r.producer
  /-- The descriptors in flight are those of the posted packets. -/
  inFlight : r.inFlight = (ts.map fun t => t.packet.fragmentCount).sum
  /-- One slot is always free. -/
  bounded : r.inFlight ≤ r.size.slots - 1
  /-- **In the slots of the window lie the descriptors of the posted packets**, in order. -/
  laid : ∀ i < r.inFlight, ∃ d, (ts.flatMap fun t => t.packet.descriptors)[i]? = some d ∧
    table ((r.reclaim.advance i).slot r.size.slots) = some d

end TxRing

theorem TxFlight.tiles (h : TxFlight x m r b ts) (idle : x ≠ .draining) :
    r.Tiles m.adapter.txTable.get? ts := by
  have based := h.based idle
  have tiled := h.sound.tiled
  have table := h.table
  rw [based] at tiled table
  have inFlight := inFlight_eq_load tiled h.sound.fits
  refine ⟨?_, fun e he => ?_, ?_, inFlight, ?_, fun i hi => ?_⟩
  · rw [entries, length_append]
    exact Nat.le_add_right _ _
  · rw [entries, drop_left] at he
    obtain ⟨p, -, rfl⟩ := mem_map.mp he
    rfl
  · rw [entries, take_left]
    exact tiled
  · rw [inFlight]
    exact h.sound.fits
  · rw [inFlight, ← length_lay] at hi
    have some := getElem?_eq_getElem hi
    exact ⟨_, some, table.take _ _ some⟩

/-- **The window in flight.**  However a new ring is used, and whatever the adapter answers, the
ring represents its window after every request.  At every moment of a request as well, be it between
two descriptors of one packet, the slots in flight hold what was posted there, unless the ring is
cancelled and is being emptied. -/
theorem posted_packets_tile_window {slots depth : Nat} {m₀ m : Machine}
    (new : m₀.NewTx slots depth) (run : ReflTransGen (TxRequest fun _ => True) m₀ m) :
    (∃ r ts, m.tx = some r ∧ r.size.slots = slots ∧ r.Tiles m.adapter.txTable.get? ts) ∧
      m.Throughout fun s => ∃ r, s.tx = some r ∧ r.size.slots = slots ∧
        (r.phase ≠ .cancelled → ∃ ts, r.Tiles s.adapter.txTable.get? ts) := by
  obtain ⟨size, -, ready, surveyed, kept⟩ := new.begins fun _ _ _ _ => trivial
  let Inv (c : TxPoint × Machine) : Prop := Surveyed c ∧ TxKept slots depth c.2 ∧ TxFlying c
  have start : Inv (.idle, m₀) := ⟨surveyed, kept, .new new⟩
  have keeps (c c' : TxPoint × Machine) (step : TxStep (fun _ => True) c c') (h : Inv c) : Inv c' :=
    ⟨step.surveyed c c' h.1, TxKept.step c c' step h.1 h.2.1, TxFlying.step c c' step h.1 h.2.2⟩
  have steps := steps_of_requests run ready
  constructor
  · obtain ⟨-, kept, q, b, ts, flight⟩ := Machine.inv_of_steps Inv keeps steps start
    exact ⟨q, ts, flight.tx, (kept.ledger flight.tx).1, flight.tiles TxPoint.noConfusion⟩
  · refine Machine.throughout_of_steps Inv keeps TxStep.remembers ?_ steps start new.moments
    rintro ⟨x, k⟩ ⟨-, kept, q, b, ts, flight⟩
    refine ⟨q, flight.tx, (kept.ledger flight.tx).1, fun live => ⟨ts, flight.tiles ?_⟩⟩
    rintro rfl
    exact live flight.reached

/-- The window wraps around the end of a ring of four slots. -/
theorem posted_packets_tile_window_wrapping :
    ∃ m, ReflTransGen (TxRequest fun _ => True) (.withTx ⟨4, by decide⟩ 4) m ∧
      m.tx.map (fun r => (r.reclaim, r.producer, r.passed.length)) = some (2, 5, 2) ∧
      (∃ r ts, m.tx = some r ∧ r.size.slots = 4 ∧ r.Tiles m.adapter.txTable.get? ts) ∧
      m.Throughout fun s => ∃ r, s.tx = some r ∧ r.size.slots = 4 ∧
        (r.phase ≠ .cancelled → ∃ ts, r.Tiles s.adapter.txTable.get? ts) := by
  let p : Packet := (Packet.single 1 ⟨.ofNat 0x1000, 64⟩).push ⟨.ofNat 0x1100, 64⟩
  let q : Packet := .single 2 ⟨.ofNat 0x2000, 64⟩
  have run : ReflTransGen (TxRequest fun _ => True) (.withTx ⟨4, by decide⟩ 4) _ :=
    ReflTransGen.refl
      |>.tail (.sending (.submit _ p))
      |>.tail (.sending (.submit _ q))
      |>.tail (.sending (.submit _ p))
      |>.tail (.start _)
      |>.tail (.advance _ (Upper.abides_silent _))
      |>.tail (.sending (@Sending.move _ _ (.consume 2) trivial))
      |>.tail (.advance _ (Upper.abides_silent _))
      |>.tail (.advance _ (Upper.abides_silent _))
  exact ⟨_, run, by decide,
    posted_packets_tile_window (Machine.newTx_withTx ⟨4, by decide⟩ 4) run⟩

end DescriptorRings
