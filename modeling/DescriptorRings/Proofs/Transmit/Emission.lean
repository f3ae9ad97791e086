import DescriptorRings.Proofs.Transmit.Cancellation

/-!
# What the adapter is given to transmit

Of all that a transmit ring does three things make up the stream of its descriptors: a packet is
announced, a descriptor is written, the doorbell is rung.  They leave *marks*, in the order in which
they happen, and `Emits` says which marks an operation leaves.

A posting walk is a *sweep*: the packets one after the other, each announced and then written whole,
and the doorbell at the very end, if there was anything to ring it for.  It does nothing else, and
changes nothing but the ring (`TxDoes.postTx`); so these are the marks that it leaves
(`Emits.postTx`).  A start rings the doorbell as well.  Nothing else leaves a mark, neither handing packets back nor
cancelling nor anything that the upper layer does in a callback.

The descriptors of a sweep lie in the slots from one counter on, without a gap
(`Tiled.writesOf_eq`), because each post of a walk begins where the one before it ends.
-/

namespace DescriptorRings

open Relation List TxRing

variable {permits : Move → Prop} {m m' m'' : Machine} {r : TxRing}

/-! ## Marks -/

/-- What a transmit ring does that the adapter can go by. -/
inductive TxMark where
  /-- The descriptors of a packet are about to be written. -/
  | posting (t : TxPost)
  /-- A descriptor was written. -/
  | wrote (slot : Nat) (d : TxDescriptor)
  /-- The doorbell was rung. -/
  | rang (v : UInt32)
  deriving DecidableEq, Repr

namespace TxMark

/-- The packet that was announced. -/
def post? : TxMark → Option TxPost
  | .posting t => some t
  | _ => none

/-- The descriptor that was written, with its slot. -/
def write? : TxMark → Option (Nat × TxDescriptor)
  | .wrote slot d => some (slot, d)
  | _ => none

/-- The event that a mark was left by. -/
def event : TxMark → Event
  | .posting t => .posting t
  | .wrote slot d => .wroteTx slot d
  | .rang v => .wrote .txProducer v

end TxMark

namespace Event

/-- The mark that an event leaves. -/
def txMark? : Event → Option TxMark
  | .posting t => some (.posting t)
  | .wroteTx slot d => some (.wrote slot d)
  | .wrote .txProducer v => some (.rang v)
  | _ => none

/-- An event that leaves no mark. -/
def Traceless (e : Event) : Prop := e.txMark? = none

theorem traceless_moved (mv : Move) : (Event.moved mv).Traceless := rfl

theorem traceless_noticed (n : Notice) : (Event.noticed n).Traceless := rfl

theorem traceless_switch (v : UInt32) : (Event.wrote .txDmaControl v).Traceless := rfl

theorem traceless_of_isSending {e : Event} (h : e.isSending = true) : e.Traceless := by
  cases e with
  | wrote reg => cases reg <;> first | rfl | exact absurd h Bool.false_ne_true
  | _ => first | rfl | exact absurd h Bool.false_ne_true

theorem txMark?_event (x : TxMark) : x.event.txMark? = some x := by cases x <;> rfl

/-- Whatever leaves a mark is something that is done. -/
theorem traceless_of_not_isDone {e : Event} (h : e.isDone = false) : e.Traceless := by
  cases e <;> first | rfl | exact absurd h.symm Bool.false_ne_true

theorem bind_post? (e : Event) : e.txMark?.bind TxMark.post? = e.posting? := by
  cases e with
  | wrote reg v => cases reg <;> rfl
  | _ => rfl

theorem bind_write? (e : Event) : e.txMark?.bind TxMark.write? = e.wroteTx? := by
  cases e with
  | wrote reg v => cases reg <;> rfl
  | _ => rfl

end Event

namespace Journal

/-- The marks so far. -/
def txMarks (j : Journal) : List TxMark := j.pick Event.txMark?

theorem announced_eq (j : Journal) : j.announced = j.txMarks.filterMap TxMark.post? := by
  rw [txMarks, pick, filterMap_filterMap]
  exact congrArg (filterMap · _) (funext fun e => (e.bind_post?).symm)

theorem written_eq (j : Journal) : j.written = j.txMarks.filterMap TxMark.write? := by
  rw [txMarks, pick, filterMap_filterMap]
  exact congrArg (filterMap · _) (funext fun e => (e.bind_write?).symm)

end Journal

/-! ## Sweeps -/

namespace TxPost

/-- The marks of one post. -/
def marks (t : TxPost) (size : RingSize) : List TxMark :=
  .posting t :: (t.writes size).map fun w => .wrote w.1 w.2

theorem filterMap_post?_marks (t : TxPost) (size : RingSize) :
    (t.marks size).filterMap TxMark.post? = [t] := by
  rw [marks, filterMap_cons_some (by rfl : TxMark.post? _ = some t), filterMap_map]
  exact congrArg (t :: ·) (filterMap_eq_nil_iff.mpr fun _ _ => rfl)

theorem filterMap_write?_marks (t : TxPost) (size : RingSize) :
    (t.marks size).filterMap TxMark.write? = t.writes size := by
  rw [marks, filterMap_cons_none (by rfl), filterMap_map]
  exact filterMap_some

end TxPost

namespace TxRing

/-- The marks of the posts of a walk. -/
def strokes (size : RingSize) (ts : List TxPost) : List TxMark := ts.flatMap fun t => t.marks size

/-- The marks of a posting walk that begins at a counter. -/
def sweep (size : RingSize) (c : Counter) (ts : List TxPost) : List TxMark :=
  strokes size ts ++ if ts = [] then [] else [.rang (c.advance (load ts)).toUInt32]

/-- What is not picked from the doorbell is picked from one post after the other. -/
theorem filterMap_sweep {α : Type} {f : TxMark → Option α} (deaf : ∀ v, f (.rang v) = none)
    (size : RingSize) (c : Counter) (ts : List TxPost) :
    (sweep size c ts).filterMap f = ts.flatMap fun t => (t.marks size).filterMap f := by
  have bell :
      (if ts = [] then [] else [.rang (c.advance (load ts)).toUInt32]).filterMap f = [] := by
    split
    · rfl
    · rw [filterMap_cons_none (deaf _), filterMap_nil]
  rw [sweep, filterMap_append, bell, append_nil, strokes, filterMap_flatMap]

/-- A sweep announces its posts. -/
theorem filterMap_post?_sweep (size : RingSize) (c : Counter) (ts : List TxPost) :
    (sweep size c ts).filterMap TxMark.post? = ts := by
  rw [filterMap_sweep fun _ => rfl]
  simp only [TxPost.filterMap_post?_marks]
  exact flatMap_singleton' ts

/-- A sweep writes their descriptors. -/
theorem filterMap_write?_sweep (size : RingSize) (c : Counter) (ts : List TxPost) :
    (sweep size c ts).filterMap TxMark.write? = writesOf size ts := by
  rw [filterMap_sweep fun _ => rfl, writesOf]
  simp only [TxPost.filterMap_write?_marks]

end TxRing

/-! ## Descriptors in a row -/

/-- Things in the slots from a counter on. -/
def Counter.row {α : Type} (c : Counter) (size : Nat) (as : List α) : List (Nat × α) :=
  as.mapIdx fun i a => ((c.toNat + i) % size, a)

namespace Counter

variable {α : Type} (c : Counter) (size : RingSize)

theorem slot_advance_eq (i : Nat) :
    (c.advance i).slot size.slots = (c.toNat + i) % size.slots := by
  rw [slot_advance, slot, Nat.mod_add_mod]

@[simp] theorem row_nil (n : Nat) : c.row n ([] : List α) = [] := rfl

theorem map_snd_row (as : List α) : (c.row size.slots as).map Prod.snd = as :=
  List.ext_getElem (by simp [row]) fun i _ _ => by simp [row]

theorem row_append (as bs : List α) :
    c.row size.slots (as ++ bs) =
      c.row size.slots as ++ (c.advance as.length).row size.slots bs := by
  have later (i : Nat) : (c.toNat + (i + as.length)) % size.slots =
      ((c.advance as.length).toNat + i) % size.slots := by
    rw [← slot_advance_eq, ← slot_advance_eq, advance_advance, Nat.add_comm]
  rw [row, mapIdx_append]
  simp only [later]
  rfl

end Counter

namespace TxRing

theorem writes_eq (t : TxPost) (size : RingSize) :
    t.writes size = t.first.row size.slots t.packet.descriptors := by
  unfold TxPost.writes Counter.row
  simp only [Counter.slot_advance_eq]

/-- **What the posts of a tiling come to lies in a row.** -/
theorem Tiled.writesOf_eq {a b : Counter} {es : List TxEntry} {ts : List TxPost} {size : RingSize}
    (h : Tiled a es ts b) : writesOf size ts = a.row size.slots (lay ts) := by
  induction h with
  | nil => rfl
  | skip _ _ ih => exact ih
  | @post a b p es ts some rest ih =>
    rw [lay_cons, Counter.row_append, Packet.length_descriptors, ← ih, ← writes_eq ⟨p, a⟩ size]
    rfl

/-- The doorbell is rung if something was written, and says where that ends. -/
theorem Tiled.sweep_eq {a b : Counter} {es : List TxEntry} {ts : List TxPost} (h : Tiled a es ts b)
    (size : RingSize) :
    sweep size a ts = strokes size ts ++ if load ts = 0 then [] else [.rang b.toUInt32] := by
  have nothing : load ts = 0 ↔ ts = [] := ⟨h.eq_nil_of_load, fun none => by rw [none, load_nil]⟩
  simp only [sweep, nothing, h.eq_advance_load]

end TxRing

/-! ## What an operation does -/

/-- From one machine to another these things were done, one after the other, and no others, and
nothing has changed but the transmit ring and what belongs to the adapter. -/
structure Machine.TxDoes (done : List Event) (r : TxRing) (m m' : Machine) : Prop where
  /-- What was done. -/
  does : m.Does done m'
  /-- The ring is `r` now, and all else is as it was. -/
  scene : ∃ a mem j, m'.toScene =
    { m.toScene with adapter := a, memory := mem, journal := j, tx := some r }

namespace Machine.TxDoes

variable {done done' : List Event} {r' : TxRing}

theorem tx (h : m.TxDoes done r m') : m'.tx = some r := by
  obtain ⟨a, mem, j, same⟩ := h.scene
  rw [same]

theorem trans (h : m.TxDoes done r m') (h' : m'.TxDoes done' r' m'') :
    m.TxDoes (done ++ done') r' m'' := by
  obtain ⟨a, mem, j, same⟩ := h.scene
  obtain ⟨a', mem', j', same'⟩ := h'.scene
  refine ⟨h.does.trans h'.does, a', mem', j', ?_⟩
  rw [same', same]

theorem set (m : Machine) (r : TxRing) : m.TxDoes [] r (m.setTx r) :=
  ⟨.of_journal_eq rfl, m.adapter, m.memory, m.journal, rfl⟩

section Parts

variable (tx : m.tx = some r)

include tx

/-- The ring is left alone. -/
theorem of_scene {a : Adapter} {mem : Memory} {j : Journal} (does : m.Does done m')
    (scene : m'.toScene = { m.toScene with adapter := a, memory := mem, journal := j }) :
    m.TxDoes done r m' := by
  refine ⟨does, a, mem, j, ?_⟩
  rw [scene, ← tx]

theorem refl : m.TxDoes [] r m := of_scene tx (.of_journal_eq rfl) rfl

theorem turn : m.TxDoes [] r m.turn := by
  obtain ⟨a, mem, j, scene⟩ := exists_toScene_turn m
  exact of_scene tx (.turn m) scene

theorem give (n : Notice) : m.TxDoes [] r (m.give n) := by
  obtain ⟨j, scene⟩ := exists_toScene_give m n
  exact of_scene tx (.give m n) scene

theorem giveIf (condition : Bool) (n : Notice) : m.TxDoes [] r (m.giveIf condition n) := by
  unfold Machine.giveIf
  split
  · exact give tx n
  · exact refl tx

theorem record {e : Event} (does : e.isDone = true) : m.TxDoes [e] r (m.record e) :=
  of_scene tx (.of_journal_add (journal_record m e) does) (toScene_record m e)

theorem write (reg : Register) (v : UInt32) : m.TxDoes [.wrote reg v] r (m.write reg v) :=
  (turn tx).trans (of_scene (turn tx).tx (.of_journal_add (journal_record _ _) rfl)
    (toScene_poke m.turn reg v))

theorem writeTx (slot : Nat) (d : TxDescriptor) :
    m.TxDoes [.wroteTx slot d] r (m.writeTx slot d) :=
  (turn tx).trans (of_scene (turn tx).tx (.of_journal_add (journal_record _ _) rfl)
    (toScene_pokeTx m.turn slot d))

theorem read (reg : Register) : m.TxDoes [.read reg (m.read reg).1] r (m.read reg).2 :=
  (turn tx).trans (record (turn tx).tx rfl)

theorem foldl {α : Type} {f : α → List Event} {g : Machine → α → Machine} (as : List α)
    (each : ∀ (k : Machine) a, k.tx = some r → k.TxDoes (f a) r (g k a)) :
    m.TxDoes (as.flatMap f) r (as.foldl g m) := by
  induction as generalizing m with
  | nil => exact refl tx
  | cons a as ih =>
    rw [flatMap_cons]
    exact (each m a tx).trans (ih (each m a tx).tx)

theorem postPacket (size : RingSize) (t : TxPost) :
    m.TxDoes ((t.marks size).map TxMark.event) r (Machine.postPacket size m t) := by
  have announced : m.TxDoes [.posting t] r (m.record (.posting t)) := record tx rfl
  rw [TxPost.marks, map_cons, List.map_map, map_eq_flatMap]
  exact announced.trans (foldl announced.tx _ fun k w there => writeTx there w.1 w.2)

theorem ringTx (count : Nat) (c : Counter) :
    m.TxDoes ((if count = 0 then [] else [.rang c.toUInt32]).map TxMark.event) r
      (m.ringTx count c) := by
  unfold Machine.ringTx
  split
  · exact refl tx
  · have rung := write tx .txProducer c.toUInt32
    exact rung.trans (give rung.tx _)

/-- **Posting is one sweep.** -/
theorem postTx
    (tiled : Tiled r.producer r.postingWalk.passed r.postingWalk.posts r.postingWalk.producer) :
    m.TxDoes ((sweep r.size r.producer r.postingWalk.posts).map TxMark.event)
      (r.afterWalk r.postingWalk) m.postTx := by
  set w := r.postingWalk with hw
  rw [tiled.sweep_eq, ← w.written_eq_load, map_append, strokes, map_flatMap]
  have written := foldl tx w.posts fun k t there => postPacket there r.size t
  have walked := written.trans (set _ (r.afterWalk w))
  rw [append_nil, ← modifyTx_eq_setTx written.tx fun r => r.afterWalk w] at walked
  unfold Machine.postTx
  rw [tx]
  dsimp only
  rw [← hw]
  cases w.stopped with
  | none => exact walked.trans (ringTx walked.tx _ _)
  | some stop =>
    have noted := walked.trans (give walked.tx (.txBackpressure stop.1 stop.2))
    rw [append_nil] at noted
    exact noted.trans (ringTx noted.tx _ _)

theorem checkTxReading (c : Counter) : m.TxDoes [] (r.noteReading c) (m.checkTxReading c) := by
  unfold Machine.checkTxReading
  rw [tx]
  dsimp only
  have given := giveIf tx (!r.believes c) (.txBadConsumer c r.reclaim r.producer)
  rw [modifyTx_eq_setTx given.tx fun r => r.noteReading c]
  exact given.trans (set _ _)

end Parts

end Machine.TxDoes

/-! ## What an operation leaves -/

namespace Machine

/-- Between two machines some marks are left. -/
structure Emits (xs : List TxMark) (m m' : Machine) : Prop where
  /-- The level of detail stays. -/
  detail : m'.journal.detail = m.journal.detail
  /-- These marks are left and no others. -/
  marks : m.journal.detail = .complete → m'.journal.txMarks = m.journal.txMarks ++ xs

namespace Emits

variable {xs ys : List TxMark}

theorem of_enters (h : m.Enters Event.Traceless m') : Emits [] m m' := by
  refine ⟨h.detail, fun complete => ?_⟩
  rw [append_nil]
  exact h.pick_eq complete fun e he => he

theorem trans (h : Emits xs m m') (h' : Emits ys m' m'') : Emits (xs ++ ys) m m'' := by
  refine ⟨h'.detail.trans h.detail, fun complete => ?_⟩
  rw [h'.marks (h.detail.trans complete), h.marks complete, append_assoc]

/-- Something that leaves no mark comes after. -/
theorem then_enters (h : Emits xs m m') (h' : m'.Enters Event.Traceless m'') :
    Emits xs m m'' := by
  have all := h.trans (of_enters h')
  rwa [append_nil] at all

/-- Something that leaves no mark comes before. -/
theorem after_enters (h : m.Enters Event.Traceless m') (h' : Emits xs m' m'') : Emits xs m m'' :=
  (of_enters h).trans h'

/-- What is done leaves its marks. -/
theorem of_does {done : List Event} (h : m.Does done m') : Emits (done.filterMap Event.txMark?) m m' := by
  refine ⟨h.detail, fun complete => ?_⟩
  obtain ⟨es, hes, does⟩ := h.events complete
  have seen : ∀ e : Event, (if e.isDone = true then e.txMark? else none) = e.txMark? := by
    intro e
    split
    · rfl
    · rename_i idle
      exact (Event.traceless_of_not_isDone (Bool.eq_false_iff.mpr idle)).symm
  rw [Journal.txMarks, Journal.pick, hes, filterMap_append, ← does, filterMap_filter]
  simp only [seen]
  rfl

theorem announced (h : Emits xs m m') (complete : m.journal.detail = .complete) :
    m'.journal.announced = m.journal.announced ++ xs.filterMap TxMark.post? := by
  rw [Journal.announced_eq, h.marks complete, filterMap_append, ← Journal.announced_eq]

theorem written (h : Emits xs m m') (complete : m.journal.detail = .complete) :
    m'.journal.written = m.journal.written ++ xs.filterMap TxMark.write? := by
  rw [Journal.written_eq, h.marks complete, filterMap_append, ← Journal.written_eq]

/-! ## Posting -/

theorem ring (m : Machine) (c : Counter) :
    Emits [.rang c.toUInt32] m (m.writeCounter .txProducer c) :=
  of_does (.write m .txProducer c.toUInt32)

/-- **Posting is one sweep.** -/
theorem postTx (tx : m.tx = some r)
    (tiled : Tiled r.producer r.postingWalk.passed r.postingWalk.posts r.postingWalk.producer) :
    Emits (sweep r.size r.producer r.postingWalk.posts) m m.postTx := by
  have posted := of_does (TxDoes.postTx tx tiled).does
  rw [filterMap_map] at posted
  have marks : Event.txMark? ∘ TxMark.event = some := funext Event.txMark?_event
  rwa [marks, filterMap_some] at posted

end Emits

/-! ## Everything else -/

/-- **A start puts the doorbell where the adapter stands**, and the ring there as well. -/
theorem startTx_of_ok (tx : m.tx = some r) (ok : m.startTx.1 = .ok ()) :
    m.Emits [.rang (m.readCounter .txConsumer).1.toUInt32] m.startTx.2 ∧
      m.startTx.2.tx = some (r.begin (m.readCounter .txConsumer).1) := by
  unfold startTx at ok ⊢
  split at ok
  · exact absurd ok (by simp)
  · rename_i clear
    rw [if_neg clear]
    dsimp only
    have read : m.Enters Event.Traceless (m.readCounter .txConsumer).2 :=
      .read Event.traceless_moved (fun _ => rfl) m
    have tx' : (m.readCounter .txConsumer).2.tx = some r :=
      (tx_record _ _).trans ((tx_turn m).trans tx)
    rw [modifyTx_eq_setTx tx']
    set c := (m.readCounter .txConsumer).1
    set k := (m.readCounter .txConsumer).2.setTx (r.begin c)
    refine ⟨?_, (tx_give _ _).trans ((tx_write _ _ _).trans (tx_write k _ _))⟩
    have rung : m.Emits [.rang c.toUInt32] (k.writeCounter .txProducer c) :=
      .after_enters (read.trans (.setTx _ _ _)) (.ring k c)
    have switched := Enters.write Event.traceless_moved (Event.traceless_switch DmaControl.enable)
      (k.writeCounter .txProducer c)
    exact rung.then_enters (switched.trans (.give Event.traceless_noticed _ _))

/-- A start that is refused changes nothing. -/
theorem startTx_of_refused (refused : m.startTx.1 ≠ .ok ()) : m.startTx.2 = m := by
  unfold startTx at refused ⊢
  split at refused
  · rename_i busy
    rw [if_pos busy]
  · exact absurd rfl refused

theorem enters_cancelTx (m : Machine) : m.Enters Event.Traceless m.cancelTx := by
  unfold cancelTx
  split
  · exact .refl _ m
  · exact (Enters.write Event.traceless_moved (Event.traceless_switch _) m).trans
      ((Enters.modifyTx _ _ _).trans (.give Event.traceless_noticed _ _))

end Machine

/-- A request goes on from a machine with a ring: it leaves no mark, and neither the producer of the
ring changes nor its phase. -/
structure Served.Rests (permits : Move → Prop) (k : Machine) (r : TxRing) (s : Served) : Prop where
  /-- The callbacks to come submit packets only. -/
  abides : s.upper.Abides (TxMeanwhile permits)
  /-- No mark is left. -/
  silent : k.Enters Event.Traceless s.machine
  /-- The ring stands where it stood. -/
  ring : ∃ q, s.machine.tx = some q ∧ q.producer = r.producer ∧ q.phase = r.phase

namespace Machine

/-- One packet that is done is handed back. -/
theorem rests_completeDone {k : Machine} {s : Served} {n : Nat} (h : s.Rests permits k r) :
    (completeDone n s).2.Rests permits k r := by
  obtain ⟨q, tx, producer, phase⟩ := h.ring
  cases next : q.takeDone? n with
  | none =>
    rw [completeDone_of_none tx next]
    exact h
  | some taken =>
    obtain ⟨p, q'⟩ := taken
    rw [completeDone_of_some tx next]
    have kept : q'.producer = q.producer ∧ q'.phase = q.phase := by
      rcases takeDone?_eq_some_iff.mp next with ⟨rest, -, rfl⟩ | ⟨last, rest, -, -, rfl⟩ <;>
        exact ⟨rfl, rfl⟩
    have abides : (s.settled q' p).upper.Abides (TxMeanwhile permits) := h.abides
    have handed : s.machine.Enters Event.Traceless (s.settled q' p).machine :=
      .of_journal_add (journal_record _ _) rfl
    have replied := (Served.enters_reply abides).mono fun e => Event.traceless_of_isSending
    obtain ⟨intake, k, tx'⟩ := Served.tx_reply abides (s.tx_settled q' p)
    exact ⟨Served.abides_reply abides, h.silent.trans (handed.trans replied), _, tx',
      kept.1.trans producer, kept.2.trans phase⟩

/-- Handing packets back leaves no mark. -/
theorem rests_reclaimTx {s : Served} (abides : s.upper.Abides (TxMeanwhile permits))
    (tx : s.machine.tx = some r) : (reclaimTx s).Rests permits s.machine r := by
  set m := (s.machine.readCounter .txConsumer).2 with hm
  set c := (s.machine.readCounter .txConsumer).1 with hc
  have tx' : m.tx = some r := (tx_record _ _).trans ((tx_turn s.machine).trans tx)
  have checked : Served.Rests permits s.machine r { s with machine := m.checkTxReading c } := by
    refine ⟨abides, ?_, r.noteReading c, (TxDoes.checkTxReading tx' c).tx, ?_⟩
    · have read : s.machine.Enters Event.Traceless m :=
        .read Event.traceless_moved (fun _ => rfl) s.machine
      unfold checkTxReading
      rw [tx']
      exact read.trans ((Enters.giveIf Event.traceless_noticed _ _ _).trans (.modifyTx _ _ _))
    · obtain ⟨n, hn⟩ := exists_noteReading_eq r c
      rw [hn]
      exact ⟨rfl, rfl⟩
  obtain ⟨unconsumed, rounds, condition, n, served⟩ : ∃ unconsumed rounds condition n, reclaimTx s =
      (loop (completeDone unconsumed) rounds
        { s with machine := m.checkTxReading c }).onMachine fun m => m.giveIf condition n :=
    ⟨_, _, _, _, rfl⟩
  have looped := loop_keeps (P := Served.Rests permits s.machine r)
    (fun _ => rests_completeDone (n := unconsumed)) rounds checked
  obtain ⟨q, tx'', kept⟩ := looped.ring
  rw [served]
  exact ⟨looped.abides, looped.silent.trans (.giveIf Event.traceless_noticed _ _ _), q,
    (tx_giveIf _ _ _).trans tx'', kept⟩

end Machine

end DescriptorRings
