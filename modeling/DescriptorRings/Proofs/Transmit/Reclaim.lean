import DescriptorRings.Proofs.Transmit.Flight
import Mathlib.Order.Bounds.Basic

/-!
# How far a reading reaches

The ring decides which packets are done by comparing two distances on the ring: from a packet's last
descriptor to the producer, and from the adapter's counter to the producer.  Both are numbers below
the size of the ring, and both are measured backwards.  The specification measures forwards and
knows no ring: a reading `c` says that the adapter has consumed the first `h` descriptors of the
window, and a packet is done when all of its descriptors are among them.

This file proves that the two agree.

* `takeDone?_eq`: whether the oldest packet is taken out is a matter of its number of descriptors
  and of how many the adapter has consumed, for any size and any place of the counters.
* `doneWith`: how many packets are done then, counted from the oldest one on;
  `isGreatest_doneWith` says that no longer series is.
* `loop_completeDone`: the loop that hands packets back hands back that many, whatever the
  upper layer submits meanwhile.

A reading that lies outside the window counts as `h = 0`.  The packets that were skipped are done
all the same, as long as no posted one comes before them.
-/

namespace DescriptorRings

open Relation List

/-! ## What passed packets cost -/

/-- How many descriptors a passed packet takes: none if it was skipped. -/
def TxEntry.cost (e : TxEntry) : Nat :=
  match e.last with
  | none => 0
  | some _ => e.packet.fragmentCount

namespace TxRing

/-- How many descriptors some passed packets take. -/
def cost (es : List TxEntry) : Nat := (es.map TxEntry.cost).sum

@[simp] theorem cost_nil : cost [] = 0 := rfl

@[simp] theorem cost_cons (e : TxEntry) (es : List TxEntry) : cost (e :: es) = e.cost + cost es :=
  rfl

theorem cost_append (es fs : List TxEntry) : cost (es ++ fs) = cost es + cost fs := by
  rw [cost, map_append, sum_append]
  rfl

/-- How many of the oldest packets are done when `h` descriptors are consumed. -/
def doneWith : Nat → List TxEntry → Nat
  | _, [] => 0
  | h, e :: es => if e.cost ≤ h then doneWith (h - e.cost) es + 1 else 0

/-- **No longer series of packets is done.** -/
theorem isGreatest_doneWith (h : Nat) (es : List TxEntry) :
    IsGreatest {n | n ≤ es.length ∧ cost (es.take n) ≤ h} (doneWith h es) := by
  induction es generalizing h with
  | nil => exact ⟨⟨le_rfl, Nat.zero_le h⟩, fun n hn => hn.1⟩
  | cons e es ih =>
    unfold doneWith
    by_cases affordable : e.cost ≤ h
    · rw [if_pos affordable]
      obtain ⟨⟨within, paid⟩, most⟩ := ih (h - e.cost)
      constructor
      · refine ⟨Nat.succ_le_succ within, ?_⟩
        rw [take_succ_cons, cost_cons]
        omega
      · rintro n ⟨hn, hc⟩
        cases n with
        | zero => exact Nat.zero_le _
        | succ n =>
          rw [take_succ_cons, cost_cons] at hc
          exact Nat.succ_le_succ (most ⟨Nat.le_of_succ_le_succ hn, by omega⟩)
    · rw [if_neg affordable]
      constructor
      · exact ⟨Nat.zero_le _, Nat.zero_le h⟩
      · rintro n ⟨-, hc⟩
        cases n with
        | zero => exact le_rfl
        | succ n =>
          rw [take_succ_cons, cost_cons] at hc
          omega

namespace Tiled

variable {a b : Counter} {es : List TxEntry} {ts : List TxPost}

/-- A tiling ends after the last descriptor of its last post. -/
theorem end_eq (h : Tiled a es ts b) :
    b = ((es.filterMap TxEntry.last).getLast?.map fun last => last.advance 1).getD a := by
  induction h with
  | nil => rfl
  | skip _ _ ih => exact ih
  | @post a b p es ts some rest ih =>
    have next : (TxPost.last ⟨p, a⟩).advance 1 = a.advance p.fragmentCount :=
      TxPost.last_advance_one ⟨p, a⟩
    rw [filterMap_cons_some (by rfl : TxEntry.last _ = Option.some (TxPost.last ⟨p, a⟩)),
      getLast?_cons, Option.map_some, Option.getD_some]
    cases later : (es.filterMap TxEntry.last).getLast? with
    | none =>
      rw [later] at ih
      rw [ih, Option.getD_none, next]
      rfl
    | some last =>
      rw [later] at ih
      exact ih

/-- The first packets of a tiling make a tiling of their own. -/
theorem take (h : Tiled a es ts b) (k : Nat) :
    ∃ us, Tiled a (es.take k) us (a.advance (cost (es.take k))) := by
  induction h generalizing k with
  | nil a =>
    refine ⟨[], ?_⟩
    rw [take_nil, cost_nil, Counter.advance_zero]
    exact .nil a
  | @skip a b p es ts ignored _ ih =>
    cases k with
    | zero =>
      refine ⟨[], ?_⟩
      rw [take_zero, cost_nil, Counter.advance_zero]
      exact .nil a
    | succ k =>
      obtain ⟨us, tiled⟩ := ih k
      refine ⟨us, ?_⟩
      rw [take_succ_cons, cost_cons, TxEntry.cost, Nat.zero_add]
      exact .skip ignored tiled
  | @post a b p es ts some _ ih =>
    cases k with
    | zero =>
      refine ⟨[], ?_⟩
      rw [take_zero, cost_nil, Counter.advance_zero]
      exact .nil a
    | succ k =>
      obtain ⟨us, tiled⟩ := ih k
      refine ⟨⟨p, a⟩ :: us, ?_⟩
      rw [take_succ_cons, cost_cons, TxEntry.cost, ← Counter.advance_advance]
      exact .post some tiled

/-- What is left of a tiling without its first packet begins where that ends. -/
theorem tail {e : TxEntry} (h : Tiled a (e :: es) ts b) :
    ∃ us, Tiled (a.advance e.cost) es us b ∧ load ts = e.cost + load us := by
  cases h with
  | skip _ rest =>
    refine ⟨ts, ?_, (Nat.zero_add _).symm⟩
    rw [TxEntry.cost, Counter.advance_zero]
    exact rest
  | @post _ _ p _ us _ rest => exact ⟨us, rest, load_cons _ _⟩

/-- With nothing consumed, the packets that are done are the skipped ones in front. -/
theorem take_doneWith_zero (h : Tiled a es ts b) (unmarked : ∀ t ∈ ts, t.packet.ignored = false) :
    es.take (doneWith 0 es) = es.takeWhile fun e => e.packet.ignored := by
  induction h with
  | nil => rfl
  | @skip a b p es ts ignored _ ih =>
    have free : (⟨p, none⟩ : TxEntry).cost ≤ 0 := le_rfl
    rw [doneWith, if_pos free, take_succ_cons, takeWhile_cons, if_pos ignored]
    exact congrArg _ (ih unmarked)
  | @post a b p es ts some _ ih =>
    have dear : ¬(⟨p, Option.some (TxPost.last ⟨p, a⟩)⟩ : TxEntry).cost ≤ 0 :=
      Nat.not_le_of_lt some
    have marked : ¬p.ignored = true := Bool.eq_false_iff.mp (unmarked ⟨p, a⟩ mem_cons_self)
    rw [doneWith, if_neg dear, take_zero, takeWhile_cons, if_neg marked]

end Tiled

/-! ## One packet -/

/-- **Whether the oldest packet is done** depends on what it costs and on what is consumed, and on
nothing else.  The ring has `n` descriptors unconsumed. -/
theorem takeDone?_eq {r : TxRing} {ts : List TxPost} {e : TxEntry} {rest : List TxEntry} {n : Nat}
    (tiled : Tiled r.reclaim r.passed ts r.producer) (fits : load ts ≤ r.capacity)
    (hn : n ≤ load ts) (passed : r.passed = e :: rest) :
    r.takeDone? n =
      if e.cost ≤ load ts - n then
        some (e.packet, { r with passed := rest, reclaim := r.reclaim.advance e.cost })
      else none := by
  rw [passed] at tiled
  unfold takeDone?
  rw [passed]
  generalize he : r.reclaim = b at tiled ⊢
  cases tiled with
  | @skip _ _ p _ _ ignored tiled =>
    have free : (⟨p, none⟩ : TxEntry).cost ≤ load ts - n := Nat.zero_le _
    rw [if_pos free, TxEntry.cost, Counter.advance_zero, ← he]
  | @post _ _ p _ ts some tiled =>
    have whole : load (⟨p, b⟩ :: ts) = p.fragmentCount + load ts := load_cons _ _
    have small : load (⟨p, b⟩ :: ts) < r.size.slots := Nat.lt_of_le_of_lt fits r.size.capacity_lt
    have behind : r.producer.distance (TxPost.last ⟨p, b⟩) r.size.slots = load ts + 1 := by
      rw [TxPost.last_eq ⟨p, b⟩ some, tiled.eq_advance_load, Counter.advance_advance,
        Counter.distance_advance_advance b r.size (by dsimp only; omega) (by dsimp only; omega)]
      dsimp only
      omega
    have next : (TxPost.last ⟨p, b⟩).advance 1 = b.advance p.fragmentCount :=
      TxPost.last_advance_one ⟨p, b⟩
    dsimp only [TxEntry.cost]
    rw [behind, next]
    by_cases done : p.fragmentCount ≤ load (⟨p, b⟩ :: ts) - n
    · rw [if_neg (by omega)]
      exact (if_pos done).symm
    · rw [if_pos (by omega)]
      exact (if_neg done).symm

/-! ## All packets that are done -/

/-- What a ring has become after its `k` oldest packets were handed back. -/
structure HandsBack (r r' : TxRing) (k : Nat) : Prop where
  /-- The others are left. -/
  passed : r'.passed = r.passed.drop k
  /-- The window begins where theirs do. -/
  reclaim : r'.reclaim = r.reclaim.advance (cost (r.passed.take k))
  /-- It ends where it did. -/
  producer : r'.producer = r.producer
  /-- What no walk has reached is not touched. -/
  waiting : r'.waiting = r.waiting
  /-- No reading was counted. -/
  badConsumer : r'.stats.badConsumer = r.stats.badConsumer

theorem badConsumer_settle (r : TxRing) (p : Packet) :
    (r.settle p).stats.badConsumer = r.stats.badConsumer := by
  unfold settle
  cases p.ignored <;> rfl

end TxRing

/-- What a request has come to after it handed back the `k` oldest packets of a ring. -/
structure Served.HandedBack (s s' : Served) (r : TxRing) (k : Nat) : Prop where
  /-- Each of them is counted. -/
  count : s'.count = s.count + k
  /-- The level of detail stays. -/
  detail : s'.machine.journal.detail = s.machine.journal.detail
  /-- They were handed back in order, and no others. -/
  completed : s'.machine.journal.completed =
    s.machine.journal.completed ++ (r.passed.take k).map TxEntry.packet
  /-- They are gone from the ring. -/
  ring : ∃ r', s'.machine.tx = some r' ∧ r.HandsBack r' k

namespace Served.HandedBack

variable {permits : Move → Prop} {s s' : Served} {r r' : TxRing}

theorem zero (tx : s.machine.tx = some r) : s.HandedBack s r 0 := by
  refine ⟨rfl, rfl, ?_, r, tx, ?_, ?_, rfl, rfl, rfl⟩
  · rw [take_zero, map_nil, append_nil]
  · rw [drop_zero]
  · rw [take_zero, TxRing.cost_nil, Counter.advance_zero]

/-- One packet is handed back, and then `k` others. -/
theorem succ {e : TxEntry} {rest : List TxEntry} {k : Nat} {out : TxRing}
    (abides : s.upper.Abides (TxMeanwhile permits)) (complete : s.machine.journal.detail = .complete)
    (passed : r.passed = e :: rest)
    (taken : out = { r with passed := rest, reclaim := r.reclaim.advance e.cost })
    (same : ∃ intake n, r' = { out.settle e.packet with intake := intake, outstanding := n })
    (later : (s.settled out e.packet).reply.HandedBack s' r' k) : s.HandedBack s' r (k + 1) := by
  subst taken
  obtain ⟨intake, n, rfl⟩ := same
  obtain ⟨q, tx, back⟩ := later.ring
  obtain ⟨detail, completed⟩ := Served.completed_reply_settled abides complete
    { r with passed := rest, reclaim := r.reclaim.advance e.cost } e.packet
  refine ⟨?_, (later.detail.trans detail).trans complete.symm, ?_, q, tx, ?_⟩
  · rw [later.count, Served.count_reply, Served.settled]
    exact Nat.add_right_comm _ _ _
  · rw [later.completed, completed, passed, take_succ_cons, map_cons, append_assoc]
    rfl
  · refine ⟨?_, ?_, back.producer, back.waiting, ?_⟩
    · rw [passed, drop_succ_cons]
      exact back.passed
    · rw [passed, take_succ_cons, TxRing.cost_cons, ← Counter.advance_advance]
      exact back.reclaim
    · exact back.badConsumer.trans (TxRing.badConsumer_settle _ _)

/-- A notice may follow. -/
theorem giveIf {k : Nat} (h : s.HandedBack s' r k) (complete : s.machine.journal.detail = .complete)
    (condition : Bool) (n : Notice) :
    s.HandedBack (s'.onMachine fun m => m.giveIf condition n) r k := by
  obtain ⟨q, tx, back⟩ := h.ring
  have given : s'.machine.Enters (fun e => e.completed? = none)
      (s'.machine.giveIf condition n) := .giveIf (fun _ => rfl) _ _ _
  refine ⟨h.count, given.detail.trans h.detail, ?_, q, (Machine.tx_giveIf _ _ _).trans tx, back⟩
  exact (given.pick_eq (h.detail.trans complete) fun e he => he).trans h.completed

end Served.HandedBack

open TxRing in
/-- **The loop hands back the packets that are done**, whatever the upper layer submits in between.
The induction is on the packets that are passed: a round takes the oldest one and leaves a shorter
tiling with the same end. -/
theorem loop_completeDone {permits : Move → Prop} {n : Nat} {es : List TxEntry} {rounds : Nat}
    {s : Served} {r : TxRing} {ts : List TxPost} (abides : s.upper.Abides (TxMeanwhile permits))
    (complete : s.machine.journal.detail = .complete) (tx : s.machine.tx = some r)
    (passed : r.passed = es) (enough : es.length ≤ rounds)
    (tiled : Tiled r.reclaim es ts r.producer) (fits : load ts ≤ r.capacity) (hn : n ≤ load ts) :
    s.HandedBack (loop (Machine.completeDone n) rounds s) r (doneWith (load ts - n) es) := by
  induction es generalizing rounds s r ts with
  | nil =>
    have none : r.takeDone? n = none := by rw [takeDone?, passed]
    have stop := Machine.completeDone_of_none tx none
    rw [loop_of_idle stop]
    exact .zero tx
  | cons e es ih =>
    obtain ⟨rounds, rfl⟩ : ∃ k, rounds = k + 1 :=
      Nat.exists_eq_add_one_of_ne_zero (Nat.ne_of_gt (Nat.lt_of_lt_of_le (Nat.succ_pos _) enough))
    have next := takeDone?_eq (by rw [passed]; exact tiled) fits hn passed
    rw [doneWith]
    by_cases done : e.cost ≤ load ts - n
    · rw [if_pos done] at next ⊢
      have again := Machine.completeDone_of_some tx next
      rw [loop_of_again (by rw [again]), again]
      obtain ⟨us, left, total⟩ := tiled.tail
      set out : TxRing := { r with passed := es, reclaim := r.reclaim.advance e.cost } with hout
      have abides' : (s.settled out e.packet).upper.Abides (TxMeanwhile permits) := abides
      obtain ⟨intake, k, tx'⟩ := Served.tx_reply abides' (s.tx_settled out e.packet)
      obtain ⟨complete', -⟩ := Served.completed_reply_settled abides complete out e.packet
      refine .succ abides complete passed hout ⟨intake, k, rfl⟩ ?_
      have remaining : load ts - n - e.cost = load us - n := by omega
      rw [remaining]
      exact ih (Served.abides_reply abides') complete' tx' rfl (Nat.le_of_succ_le_succ enough) left
        (Nat.le_trans (by omega) fits) (by omega)
    · rw [if_neg done] at next ⊢
      have stop := Machine.completeDone_of_none tx next
      rw [loop_of_idle stop]
      exact .zero tx

/-! ## The whole request -/

/-- An event that hands no packet back. -/
def Event.KeepsPackets (e : Event) : Prop := e.completed? = none

namespace Machine

variable {m : Machine} {r : TxRing}

theorem enters_postTx (m : Machine) : m.Enters Event.KeepsPackets m.postTx := by
  have moved (mv : Move) : (Event.moved mv).KeepsPackets := rfl
  have noticed (n : Notice) : (Event.noticed n).KeepsPackets := rfl
  have posts (size : RingSize) (k : Machine) (t : TxPost) :
      k.Enters Event.KeepsPackets (postPacket size k t) := by
    have announced : (Event.posting t).KeepsPackets := rfl
    exact (Enters.record announced k).trans (.foldl (fun k w => .writeTx moved (by rfl) k) _ _)
  unfold postTx
  cases m.tx with
  | none => exact .refl _ m
  | some ring =>
    have walked := (Enters.foldl (posts ring.size) ring.postingWalk.posts m).trans
      (.modifyTx _ _ fun r => r.afterWalk ring.postingWalk)
    have rung (k : Machine) (n : Nat) (c : Counter) : k.Enters Event.KeepsPackets (k.ringTx n c) := by
      unfold ringTx
      split
      · exact .refl _ k
      · exact (Enters.write moved (by rfl) k).trans (.give noticed _ _)
    dsimp only
    cases ring.postingWalk.stopped with
    | none => exact walked.trans (rung _ _ _)
    | some stop => exact walked.trans ((Enters.give noticed _ _).trans (rung _ _ _))

end Machine

namespace TxRing

/-- **What is unconsumed, forwards.**  A reading in the window is as far from its beginning as it is
from the end of those that are unconsumed; any other reading counts as no progress. -/
theorem load_sub_unconsumed {r : TxRing} {ts : List TxPost}
    (tiled : Tiled r.reclaim r.passed ts r.producer) (fits : load ts ≤ r.capacity) (c : Counter) :
    r.unconsumed c ≤ load ts ∧
      load ts - r.unconsumed c = if c.past r.reclaim ≤ r.inFlight then c.past r.reclaim else 0 := by
  have inFlight := inFlight_eq_load tiled fits
  by_cases within : c.past r.reclaim ≤ r.inFlight
  · rw [if_pos within]
    rw [inFlight] at within
    have ends : r.producer = c.advance (load ts - c.past r.reclaim) := by
      have place : r.reclaim.advance (c.past r.reclaim) = c := Counter.advance_past _ _
      rw [← place, Counter.advance_advance, place, tiled.eq_advance_load,
        Nat.add_sub_cancel' within]
    have unconsumed := unconsumed_eq tiled fits (Nat.sub_le _ _) ends
    omega
  · have doubted : r.unconsumed c = r.inFlight := by
      rw [unconsumed, believes, if_neg]
      exact fun believed => within (of_decide_eq_true believed)
    rw [if_neg within]
    omega

/-- What serving a running ring comes to: `k` of the packets are handed back that are passed when the
adapter's counter is read, and the reading is `c`. -/
structure Reclaims (r r' : TxRing) (c : Counter) (k : Nat) : Prop where
  /-- So many there are. -/
  count : k ≤ r.passed.length
  /-- The others are left. -/
  passed : r'.passed = r.passed.drop k
  /-- What no walk has reached is not touched. -/
  waiting : r'.waiting = r.waiting
  /-- The window ends where it did. -/
  producer : r'.producer = r.producer
  /-- **A reading in the window** hands back the longest series of packets whose descriptors are all
  consumed, and the window begins where those of the last one end. -/
  believed : c.past r.reclaim ≤ r.inFlight →
    IsGreatest {n | n ≤ r.passed.length ∧
        ((r.passed.take n).map TxEntry.cost).sum ≤ c.past r.reclaim} k ∧
      r'.reclaim = (((r.passed.take k).filterMap TxEntry.last).getLast?.map
        fun last => last.advance 1).getD r.reclaim ∧
      r'.stats.badConsumer = r.stats.badConsumer
  /-- **Any other reading** hands back the ignored packets in front, and is counted. -/
  doubted : r.inFlight < c.past r.reclaim →
    r.passed.take k = r.passed.takeWhile (fun e => e.packet.ignored) ∧
      r'.reclaim = r.reclaim ∧ r'.stats.badConsumer = r.stats.badConsumer + 1

/-- The packets that cost nothing leave the window where it is. -/
theorem HandsBack.reclaims {r r' : TxRing} {ts : List TxPost} {c : Counter} {k : Nat}
    (back : (r.noteReading c).HandsBack r' k) (tiled : Tiled r.reclaim r.passed ts r.producer)
    (fits : load ts ≤ r.capacity) (unmarked : ∀ t ∈ ts, t.packet.ignored = false)
    (hk : k = doneWith (load ts - r.unconsumed c) r.passed) : r.Reclaims r' c k := by
  have most := isGreatest_doneWith (load ts - r.unconsumed c) r.passed
  rw [← hk] at most
  obtain ⟨n, hn⟩ := exists_noteReading_eq r c
  have passed : (r.noteReading c).passed = r.passed := by rw [hn]
  have reclaim : (r.noteReading c).reclaim = r.reclaim := by rw [hn]
  have moved := back.reclaim
  rw [passed, reclaim] at moved
  obtain ⟨-, forwards⟩ := load_sub_unconsumed tiled fits c
  refine ⟨most.1.1, ?_, ?_, ?_, fun within => ?_, fun outside => ?_⟩
  · rw [← passed]
    exact back.passed
  · rw [back.waiting, hn]
  · rw [back.producer, hn]
  · rw [if_pos within] at forwards
    rw [forwards] at most
    refine ⟨most, ?_, ?_⟩
    · obtain ⟨us, tiled'⟩ := tiled.take k
      rw [moved]
      exact tiled'.end_eq
    · have believed : r.believes c = true := decide_eq_true within
      rw [back.badConsumer, noteReading, if_pos believed]
  · rw [if_neg (Nat.not_le_of_lt outside)] at forwards
    rw [forwards] at most hk
    refine ⟨?_, ?_, ?_⟩
    · rw [hk]
      exact tiled.take_doneWith_zero unmarked
    · rw [moved, Nat.le_zero.mp most.1.2, Counter.advance_zero]
    · have doubted : ¬r.believes c = true := fun believed =>
        Nat.not_le_of_lt outside (of_decide_eq_true believed)
      rw [back.badConsumer, noteReading, if_neg doubted]

end TxRing

open TxRing

/-- The part of a request that hands packets back. -/
theorem Machine.handedBack_reclaimTx {permits : Move → Prop} {s : Served} {r : TxRing}
    {ts : List TxPost} {c : Counter} (abides : s.upper.Abides (TxMeanwhile permits))
    (complete : s.machine.journal.detail = .complete) (tx : s.machine.tx = some r)
    (reading : (s.machine.readCounter .txConsumer).1 = c)
    (tiled : Tiled r.reclaim r.passed ts r.producer) (fits : load ts ≤ r.capacity) :
    s.HandedBack (Machine.reclaimTx s) (r.noteReading c)
      (doneWith (load ts - r.unconsumed c) r.passed) := by
  have moved (mv : Move) : (Event.moved mv).KeepsPackets := rfl
  have noticed (n : Notice) : (Event.noticed n).KeepsPackets := rfl
  set m := (s.machine.readCounter .txConsumer).2 with hm
  have tx' : m.tx = some r := (tx_record _ _).trans ((tx_turn s.machine).trans tx)
  -- the reading is made and checked
  have read : s.machine.Enters Event.KeepsPackets m := .read moved (fun _ => rfl) s.machine
  have checked : s.machine.Enters Event.KeepsPackets (m.checkTxReading c) ∧
      (m.checkTxReading c).tx = some (r.noteReading c) := by
    unfold checkTxReading
    rw [tx']
    dsimp only
    refine ⟨read.trans ((Enters.giveIf noticed _ _ _).trans (.modifyTx _ _ _)), ?_⟩
    rw [modifyTx_eq_setTx ((tx_giveIf _ _ _).trans tx')]
    rfl
  obtain ⟨entered, tx₀⟩ := checked
  set s₀ : Served := { s with machine := m.checkTxReading c } with hs₀
  have complete₀ : s₀.machine.journal.detail = .complete := entered.detail.trans complete
  -- the loop runs on the ring that has counted the reading
  obtain ⟨n, hn⟩ := exists_noteReading_eq r c
  have looped : s₀.HandedBack (loop (completeDone (r.unconsumed c)) r.passed.length s₀)
      (r.noteReading c) (doneWith (load ts - r.unconsumed c) r.passed) := by
    refine loop_completeDone abides complete₀ tx₀ (by rw [hn]) le_rfl (by rw [hn]; exact tiled)
      (by rw [hn]; exact fits) (load_sub_unconsumed tiled fits c).1
  have kept : s₀.machine.journal.completed = s.machine.journal.completed :=
    entered.pick_eq complete fun e he => he
  have back : s.HandedBack (loop (completeDone (r.unconsumed c)) r.passed.length s₀)
      (r.noteReading c) (doneWith (load ts - r.unconsumed c) r.passed) :=
    ⟨looped.count, looped.detail.trans entered.detail, by rw [← kept]; exact looped.completed,
      looped.ring⟩
  obtain ⟨condition, k, served⟩ : ∃ condition k, reclaimTx s =
      (loop (completeDone (r.unconsumed c)) r.passed.length s₀).onMachine fun m =>
        m.giveIf condition k := by
    unfold readCounter at reading hm
    unfold reclaimTx readCounter
    dsimp only at reading hm ⊢
    rw [reading, ← hm, tx']
    exact ⟨_, _, rfl⟩
  rw [served]
  exact back.giveIf complete _ _

/-- **Completion follows the sequence numbers.**  A running ring is served, however it was used
before, whatever the adapter answers and whatever the upper layer submits in its callbacks.  With the
ring as it stands after the posting walk and the reading that is made then, the packets handed back
are those that plain numbers say are done, in order, and their number is the answer. -/
theorem reclaim_agrees_with_sequence_numbers {slots depth : Nat} {m₀ m : Machine} {r q : TxRing}
    {u : Upper} {c : Counter} (new : m₀.NewTx slots depth)
    (run : ReflTransGen (TxRequest fun _ => True) m₀ m) (tx : m.tx = some r)
    (running : r.phase = .running) (abides : u.Abides (Sending fun _ => True))
    (walked : (m.modifyTx collect).postTx.tx = some q)
    (reading : ((m.modifyTx collect).postTx.readCounter .txConsumer).1 = c) :
    r.collect.afterWalk r.collect.postingWalk = q ∧
      (∃ q', (m.advanceTx u).machine.tx = some q' ∧ q.Reclaims q' c (m.advanceTx u).count) ∧
      (m.advanceTx u).machine.journal.completed =
        m.journal.completed ++ (q.passed.take (m.advanceTx u).count).map TxEntry.packet := by
  obtain ⟨size, -, ready, surveyed, kept₀⟩ := new.begins fun _ _ _ _ => trivial
  -- the ring after its walk is at a point of a run of steps
  have collected := (steps_of_requests run ready).tail (.collect tx)
  rw [← Machine.modifyTx_eq_setTx tx] at collected
  have tx₁ : (m.modifyTx collect).tx = some r.collect := Machine.tx_modifyTx tx collect
  have posted := collected.trans (steps_postTx (ready.steps collected) tx₁ running)
  have hq : r.collect.afterWalk r.collect.postingWalk = q :=
    Option.some.inj ((tx_postTx tx₁).symm.trans walked)
  obtain ⟨-, kept, q', b, ts, flight⟩ := Machine.inv_of_steps
    (fun c => Surveyed c ∧ TxKept slots depth c.2 ∧ TxFlying c)
    (fun c c' step h => ⟨step.surveyed c c' h.1, TxKept.step c c' step h.1 h.2.1,
      TxFlying.step c c' step h.1 h.2.2⟩) posted ⟨surveyed, kept₀, .new new⟩
  obtain rfl : q' = q := Option.some.inj (flight.tx.symm.trans walked)
  have tiled := flight.sound.tiled
  rw [flight.based TxPoint.noConfusion] at tiled
  have fits := flight.sound.fits
  have unmarked : ∀ t ∈ ts, t.packet.ignored = false := by
    refine flight.unmarked ?_
    rw [← hq]
    show r.phase ≠ .cancelled
    rw [running]
    exact Phase.noConfusion
  -- what is left of the request is the reading and the loop
  have served := m.advanceTx_of_running tx running u
  have back := Machine.handedBack_reclaimTx (s := .start u (m.modifyTx collect).postTx)
    abides.meanwhile kept.complete walked reading tiled fits
  rw [← served] at back
  obtain ⟨q'', tx'', handed⟩ := back.ring
  have count : (m.advanceTx u).count = doneWith (load ts - q'.unconsumed c) q'.passed :=
    back.count.trans (Nat.zero_add _)
  rw [← count] at back handed
  refine ⟨hq, ⟨q'', tx'', handed.reclaims tiled fits unmarked count⟩, ?_⟩
  have entered := Machine.enters_postTx (m.modifyTx collect)
  have before : (m.modifyTx collect).postTx.journal.completed = m.journal.completed :=
    entered.pick_eq (entered.detail.symm.trans kept.complete) fun e he => he
  obtain ⟨n, hn⟩ := exists_noteReading_eq q' c
  have passed : (q'.noteReading c).passed = q'.passed := by rw [hn]
  rw [← before, ← passed]
  exact back.completed

/-- Two packets are done out of four: the adapter has consumed the first one and a part of the third
one, and the second one was ignored. -/
theorem reclaim_agrees_with_sequence_numbers_partly :
    ∃ m r q, ReflTransGen (TxRequest fun _ => True) (.withTx ⟨8, by decide⟩ 8) m ∧
      m.tx = some r ∧ (m.modifyTx collect).postTx.tx = some q ∧ q.passed.length = 4 ∧
      (m.advanceTx .silent).count = 2 ∧
      (∃ q', (m.advanceTx .silent).machine.tx = some q' ∧
        q.Reclaims q' 3 (m.advanceTx .silent).count) ∧
      (m.advanceTx .silent).machine.journal.completed =
        m.journal.completed ++ (q.passed.take (m.advanceTx .silent).count).map TxEntry.packet := by
  let p : Packet := (Packet.single 1 ⟨.ofNat 0x1000, 64⟩).push ⟨.ofNat 0x1100, 64⟩
  let started : Machine := (Machine.withTx ⟨8, by decide⟩ 8).startTx.2
  let queued : Machine := ((((started.submit p).2.submit p.ignore).2.submit p).2.submit p).2
  let m : Machine := (queued.advanceTx .silent).machine.move (.consume 3)
  have run : ReflTransGen (TxRequest fun _ => True) (.withTx ⟨8, by decide⟩ 8) m :=
    ReflTransGen.refl
      |>.tail (.start _)
      |>.tail (.sending (.submit _ p))
      |>.tail (.sending (.submit _ p.ignore))
      |>.tail (.sending (.submit _ p))
      |>.tail (.sending (.submit _ p))
      |>.tail (.advance _ (Upper.abides_silent _))
      |>.tail (.sending (@Sending.move _ _ (.consume 3) trivial))
  have phase : m.tx.map TxRing.phase = some .running := by decide
  have length : (m.modifyTx collect).postTx.tx.map (fun q => q.passed.length) = some 4 := by decide
  obtain ⟨r, tx, running⟩ := Option.map_eq_some_iff.mp phase
  obtain ⟨q, walked, four⟩ := Option.map_eq_some_iff.mp length
  obtain ⟨-, served, completed⟩ := reclaim_agrees_with_sequence_numbers
    (Machine.newTx_withTx ⟨8, by decide⟩ 8) run tx running (Upper.abides_silent _) walked
    (by decide : ((m.modifyTx collect).postTx.readCounter .txConsumer).1 = 3)
  exact ⟨m, r, q, run, tx, walked, four, by decide, served, completed⟩

end DescriptorRings
