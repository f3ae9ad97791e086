import DescriptorRings.Proofs.Counter.Window
import DescriptorRings.Transmit.Ring

/-!
# The window of a transmit ring

A ring believes that the descriptors from `reclaim` up to `producer` are in flight, and that they
are the descriptors of the packets that it has posted and not handed back.  This file makes the
belief a relation between two counters and the list of passed packets, `Tiled`: read from the oldest
packet on, each posted packet covers as many counters as it has fragments, the next one begins where
it ends, and a packet that was skipped covers none and is ignored.

* `Tiled.eq_advance_load` and `inFlight_eq_load`: the number of descriptors in flight is the number
  of fragments of the posted packets.
* `Tiled.exists_post`: a counter of the window belongs to a posted packet.
* `tiled_walk`: what the posting walk passes tiles the counters that it moves over.
* `le_load_of_done`: a packet that is done leaves no fewer descriptors than the adapter has not
  consumed.  This is where a distance on the ring turns into a number of descriptors.
-/

namespace DescriptorRings

open List

namespace TxRing

/-! ## What enters and what leaves the ring -/

/-- A new ring is empty. -/
theorem create_eq_ok {slots depth : Nat} {r : TxRing} (h : create slots depth = .ok r) :
    ∃ size : RingSize, size.slots = slots ∧ r = { size := size, depth := depth } := by
  unfold create RingSize.ofNat? at h
  split at h
  · rename_i size hsize
    split at hsize
    · obtain rfl := Option.some.inj hsize
      exact ⟨_, rfl, (Except.ok.inj h).symm⟩
    · exact absurd hsize (Option.some_ne_none size).symm
  · exact absurd h (by simp)

/-- **A packet is taken in if it has a fragment, if it fits, and if there is room for it.** -/
theorem refusal?_eq_none_iff {r : TxRing} {p : Packet} :
    r.refusal? p = none ↔
      0 < p.fragmentCount ∧ p.fragmentCount ≤ r.capacity ∧ r.outstanding < r.depth := by
  unfold refusal?
  dsimp only
  split
  · rename_i none
    simp [none]
  · rename_i some
    split
    · rename_i large
      simp [Nat.not_le_of_lt large]
    · rename_i fits
      split
      · rename_i full
        simp [Nat.not_lt_of_le full]
      · rename_i room
        exact ⟨fun _ => ⟨Nat.pos_of_ne_zero some, Nat.le_of_not_lt fits, Nat.lt_of_not_le room⟩,
          fun _ => rfl⟩

/-- Counting a reading changes nothing but the count of readings that are not believed. -/
theorem exists_noteReading_eq (r : TxRing) (c : Counter) :
    ∃ n, r.noteReading c = { r with stats := { r.stats with badConsumer := n } } := by
  unfold noteReading
  split
  · exact ⟨r.stats.badConsumer, rfl⟩
  · exact ⟨r.stats.badConsumer + 1, rfl⟩

/-- **What `takeDone?` takes**: the oldest passed packet, if it was skipped or if its last
descriptor leaves enough behind it. -/
theorem takeDone?_eq_some_iff {r r' : TxRing} {n : Nat} {p : Packet} :
    r.takeDone? n = some (p, r') ↔
      (∃ rest, r.passed = ⟨p, none⟩ :: rest ∧ r' = { r with passed := rest }) ∨
      ∃ last rest, r.passed = ⟨p, some last⟩ :: rest ∧
        n < r.producer.distance last r.size.slots ∧
        r' = { r with passed := rest, reclaim := last.advance 1 } := by
  unfold takeDone?
  split
  · rename_i hp
    simp [hp]
  · rename_i q rest hp
    constructor
    · intro h
      obtain ⟨rfl, rfl⟩ := Prod.mk.inj (Option.some.inj h)
      exact Or.inl ⟨rest, hp, rfl⟩
    · rintro (⟨rest', hp', rfl⟩ | ⟨last, rest', hp', -, -⟩)
      · obtain ⟨he, rfl⟩ := List.cons.inj (hp.symm.trans hp')
        obtain ⟨rfl, -⟩ := TxEntry.mk.inj he
        rfl
      · obtain ⟨he, -⟩ := List.cons.inj (hp.symm.trans hp')
        exact absurd (TxEntry.mk.inj he).2 (Option.some_ne_none last).symm
  · rename_i q last rest hp
    constructor
    · intro h
      split at h
      · exact absurd h (Option.some_ne_none _).symm
      · rename_i hlt
        obtain ⟨rfl, rfl⟩ := Prod.mk.inj (Option.some.inj h)
        exact Or.inr ⟨last, rest, hp, Nat.lt_of_not_le hlt, rfl⟩
    · rintro (⟨rest', hp', -⟩ | ⟨last', rest', hp', hlt, rfl⟩)
      · obtain ⟨he, -⟩ := List.cons.inj (hp.symm.trans hp')
        exact absurd (TxEntry.mk.inj he).2 (Option.some_ne_none last)
      · obtain ⟨he, rfl⟩ := List.cons.inj (hp.symm.trans hp')
        obtain ⟨rfl, hl⟩ := TxEntry.mk.inj he
        obtain rfl := Option.some.inj hl
        rw [if_neg (Nat.not_le_of_lt hlt)]

/-- **What `takeOldest?` takes**: the oldest packet past the intake. -/
theorem takeOldest?_eq_some_iff {r r' : TxRing} {p : Packet} :
    r.takeOldest? = some (p, r') ↔
      (∃ e rest, r.passed = e :: rest ∧ p = e.packet ∧ r' = { r with passed := rest }) ∨
      ∃ rest, r.passed = [] ∧ r.waiting = p :: rest ∧ r' = { r with waiting := rest } := by
  unfold takeOldest?
  split
  · rename_i e rest hp
    constructor
    · intro h
      obtain ⟨rfl, rfl⟩ := Prod.mk.inj (Option.some.inj h)
      exact Or.inl ⟨e, rest, hp, rfl, rfl⟩
    · rintro (⟨e', rest', hp', rfl, rfl⟩ | ⟨rest', hp', -, -⟩)
      · obtain ⟨rfl, rfl⟩ := List.cons.inj (hp.symm.trans hp')
        rfl
      · exact absurd (hp.symm.trans hp') (List.cons_ne_nil e rest)
  · rename_i q rest hp hw
    constructor
    · intro h
      obtain ⟨rfl, rfl⟩ := Prod.mk.inj (Option.some.inj h)
      exact Or.inr ⟨rest, hp, hw, rfl⟩
    · rintro (⟨e', rest', hp', -, -⟩ | ⟨rest', -, hw', rfl⟩)
      · exact absurd (hp.symm.trans hp') (List.cons_ne_nil e' rest').symm
      · obtain ⟨rfl, rfl⟩ := List.cons.inj (hw.symm.trans hw')
        rfl
  · rename_i hp hw
    simp [hp, hw]

theorem queue_of_takeOldest? {r r' : TxRing} {p : Packet} (h : r.takeOldest? = some (p, r')) :
    r.queue = p :: r'.queue := by
  rcases takeOldest?_eq_some_iff.mp h with ⟨e, rest, hp, rfl, rfl⟩ | ⟨rest, hp, hw, rfl⟩
  · rw [queue, queue, hp, List.map_cons, List.cons_append]
  · rw [queue, queue, hp, hw, List.map_nil, List.nil_append, List.nil_append]

/-- As long as there is a packet past the intake, one can be taken. -/
theorem queue_eq_nil_of_takeOldest? {r : TxRing} (h : r.takeOldest? = none) : r.queue = [] := by
  unfold takeOldest? at h
  split at h
  · exact absurd h (Option.some_ne_none _)
  · exact absurd h (Option.some_ne_none _)
  · rename_i hp hw
    rw [queue, hp, hw, List.map_nil, List.nil_append]

end TxRing

/-! ## Posts -/

namespace TxPost

/-- Marks the packet of a post. -/
def ignore (t : TxPost) : TxPost := { t with packet := t.packet.ignore }

/-- After the last descriptor of a packet comes the first one of the next packet. -/
theorem last_advance_one (t : TxPost) : t.last.advance 1 = t.first.advance t.packet.fragmentCount :=
  UInt16.sub_add_cancel _ _

theorem last_eq (t : TxPost) (some : 0 < t.packet.fragmentCount) :
    t.last = t.first.advance (t.packet.fragmentCount - 1) := by
  rw [last]
  conv_lhs => rw [← Nat.succ_pred_eq_of_pos some]
  exact Counter.advance_succ_sub_one _ _

end TxPost

namespace TxRing

/-- How many descriptors some packets take. -/
def load (ts : List TxPost) : Nat := (ts.map fun t => t.packet.fragmentCount).sum

/-- The descriptors of some packets, in order. -/
def lay (ts : List TxPost) : List TxDescriptor := ts.flatMap fun t => t.packet.descriptors

@[simp] theorem load_nil : load [] = 0 := rfl

@[simp] theorem load_cons (t : TxPost) (ts : List TxPost) :
    load (t :: ts) = t.packet.fragmentCount + load ts := rfl

@[simp] theorem load_append (ts us : List TxPost) : load (ts ++ us) = load ts + load us := by
  rw [load, List.map_append, List.sum_append]
  rfl

/-- What a walk has written is what its posts take. -/
theorem Walk.written_eq_load (w : Walk) : w.written = load w.posts := by
  rw [Walk.written, load, List.sum_eq_foldr, List.foldr_map]

@[simp] theorem lay_nil : lay [] = [] := rfl

@[simp] theorem lay_cons (t : TxPost) (ts : List TxPost) :
    lay (t :: ts) = t.packet.descriptors ++ lay ts := rfl

@[simp] theorem lay_append (ts us : List TxPost) : lay (ts ++ us) = lay ts ++ lay us :=
  List.flatMap_append

@[simp] theorem length_lay (ts : List TxPost) : (lay ts).length = load ts := by
  induction ts with
  | nil => rfl
  | cons t ts ih => rw [lay_cons, List.length_append, Packet.length_descriptors, load_cons, ih]

@[simp] theorem load_map_ignore (ts : List TxPost) : load (ts.map TxPost.ignore) = load ts := by
  rw [load, List.map_map]
  rfl

/-- The mark of a packet is not in its descriptors. -/
@[simp] theorem lay_map_ignore (ts : List TxPost) : lay (ts.map TxPost.ignore) = lay ts :=
  List.flatMap_map TxPost.ignore _ ts

/-! ## Tilings -/

/-- The posts of some passed packets cover the counters from the first one up to the second one, in
order and without a gap; the passed packets that are not posted are ignored. -/
inductive Tiled : Counter → List TxEntry → List TxPost → Counter → Prop
  /-- No packet covers no counter. -/
  | nil (a : Counter) : Tiled a [] [] a
  /-- A skipped packet covers no counter either. -/
  | skip {a b : Counter} {p : Packet} {es : List TxEntry} {ts : List TxPost}
      (ignored : p.ignored = true) (rest : Tiled a es ts b) : Tiled a (⟨p, none⟩ :: es) ts b
  /-- A posted packet covers a counter for each fragment. -/
  | post {a b : Counter} {p : Packet} {es : List TxEntry} {ts : List TxPost}
      (some : 0 < p.fragmentCount) (rest : Tiled (a.advance p.fragmentCount) es ts b) :
      Tiled a (⟨p, Option.some (TxPost.last ⟨p, a⟩)⟩ :: es) (⟨p, a⟩ :: ts) b

namespace Tiled

variable {a b c : Counter} {es fs : List TxEntry} {ts us : List TxPost}

/-- A tiling is as long as its posts are. -/
theorem eq_advance_load (h : Tiled a es ts b) : b = a.advance (load ts) := by
  induction h with
  | nil => rw [load_nil, Counter.advance_zero]
  | skip _ _ ih => exact ih
  | post _ _ ih => rw [load_cons, ih, Counter.advance_advance]

theorem append (h : Tiled a es ts b) (h' : Tiled b fs us c) : Tiled a (es ++ fs) (ts ++ us) c := by
  induction h with
  | nil => exact h'
  | skip ignored _ ih => exact .skip ignored (ih h')
  | post some _ ih => exact .post some (ih h')

/-- Marking packets leaves a tiling. -/
theorem map_ignore (h : Tiled a es ts b) :
    Tiled a (es.map TxEntry.ignore) (ts.map TxPost.ignore) b := by
  induction h with
  | nil => exact .nil _
  | skip _ _ ih => exact .skip rfl ih
  | @post a b p es ts some _ ih => exact Tiled.post (p := p.ignore) some ih

/-- Where nothing is posted, any counter will do. -/
theorem rebase (h : Tiled a es [] b) (c : Counter) : Tiled c es [] c := by
  generalize hts : ([] : List TxPost) = ts at h
  induction h with
  | nil => exact .nil c
  | skip ignored _ ih => exact .skip ignored (ih hts)
  | post => exact absurd hts.symm (List.cons_ne_nil _ _)

/-- The posts are among the packets, in order. -/
theorem sublist (h : Tiled a es ts b) : ts.map TxPost.packet <+ es.map TxEntry.packet := by
  induction h with
  | nil => exact .slnil
  | skip _ _ ih => exact ih.cons _
  | post _ _ ih => exact ih.cons_cons _

theorem some_fragment (h : Tiled a es ts b) : ∀ t ∈ ts, 0 < t.packet.fragmentCount := by
  induction h with
  | nil => exact fun t ht => absurd ht List.not_mem_nil
  | skip _ _ ih => exact ih
  | post some _ ih =>
    intro t ht
    rcases List.mem_cons.mp ht with rfl | ht
    · exact some
    · exact ih t ht

theorem eq_nil_of_load (h : Tiled a es ts b) (empty : load ts = 0) : ts = [] := by
  cases ts with
  | nil => rfl
  | cons t ts =>
    have some := h.some_fragment t List.mem_cons_self
    rw [load_cons] at empty
    omega

/-- Each post begins where the posts before it end. -/
theorem first_eq {before after : List TxPost} {t : TxPost}
    (h : Tiled a es (before ++ t :: after) b) : t.first = a.advance (load before) := by
  generalize hts : before ++ t :: after = ts at h
  induction h generalizing before with
  | nil => exact absurd hts (List.append_ne_nil_of_right_ne_nil _ (List.cons_ne_nil _ _))
  | skip _ _ ih => exact ih hts
  | @post a b p es ts some rest ih =>
    cases before with
    | nil =>
      obtain ⟨rfl, -⟩ := List.cons.inj hts
      exact (Counter.advance_zero a).symm
    | cons u before =>
      obtain ⟨rfl, hts'⟩ := List.cons.inj hts
      rw [ih hts', Counter.advance_advance, load_cons]

/-- **Every counter of a tiling belongs to a post**, and what is laid out there is a descriptor of
the packet. -/
theorem exists_post (h : Tiled a es ts b) {i : Nat} (hi : i < load ts) :
    ∃ t ∈ ts, ∃ j < t.packet.fragmentCount, a.advance i = t.first.advance j ∧
      (lay ts)[i]? = t.packet.descriptors[j]? := by
  induction h generalizing i with
  | nil => exact absurd hi (Nat.not_lt_zero i)
  | skip _ _ ih => exact ih hi
  | @post a b p es ts some rest ih =>
    by_cases inside : i < p.fragmentCount
    · refine ⟨⟨p, a⟩, List.mem_cons_self, i, inside, rfl, ?_⟩
      rw [lay_cons, List.getElem?_append_left (by rwa [Packet.length_descriptors])]
    · have outside : p.fragmentCount ≤ i := Nat.le_of_not_lt inside
      obtain ⟨t, ht, j, hj, hc, hl⟩ := ih (Nat.sub_lt_left_of_lt_add outside hi)
      refine ⟨t, List.mem_cons_of_mem _ ht, j, hj, ?_, ?_⟩
      · rw [← hc, Counter.advance_advance, Nat.add_sub_cancel' outside]
      · rw [lay_cons, List.getElem?_append_right (by rwa [Packet.length_descriptors]),
          Packet.length_descriptors, hl]

end Tiled

/-! ## The ring and its tiling -/

variable {r r' : TxRing} {b : Counter} {ts : List TxPost}

/-- The number of descriptors in flight is that of the posted packets. -/
theorem inFlight_eq_load (tiled : Tiled r.reclaim r.passed ts r.producer)
    (fits : load ts ≤ r.capacity) : r.inFlight = load ts := by
  rw [inFlight, tiled.eq_advance_load]
  exact Counter.distance_advance _ _ (Nat.lt_of_le_of_lt fits r.size.capacity_lt)

/-- A counter that lies in the window is believed, and counted from the end of the window. -/
theorem unconsumed_eq (tiled : Tiled r.reclaim r.passed ts r.producer)
    (fits : load ts ≤ r.capacity) {c : Counter} {u : Nat} (hu : u ≤ load ts)
    (hc : r.producer = c.advance u) : r.unconsumed c = u := by
  have small : load ts < r.size.slots := Nat.lt_of_le_of_lt fits r.size.capacity_lt
  have place : c = r.reclaim.advance (load ts - u) :=
    Counter.eq_advance_sub (tiled.eq_advance_load.symm.trans hc) hu
  have believed : r.believes c = true := by
    have := r.size.slots_le
    rw [believes, inFlight_eq_load tiled fits, place,
      Counter.past_advance _ (by unfold Counter.span; omega)]
    exact decide_eq_true (Nat.sub_le _ _)
  rw [unconsumed, if_pos believed, hc]
  exact Counter.distance_advance c r.size (Nat.lt_of_le_of_lt hu small)

/-! ## The posting walk -/

/-- **What the posting walk passes tiles the counters that it moves over**, and what it posts fits.
The ring has posted `n` descriptors before. -/
theorem tiled_walk (size : RingSize) (reclaim : Counter) (ps : List Packet) {n : Nat}
    (some : ∀ p ∈ ps, 0 < p.fragmentCount) (fits : n ≤ size.capacity) :
    let w := walk size reclaim ps (reclaim.advance n)
    Tiled (reclaim.advance n) w.passed w.posts w.producer ∧ n + load w.posts ≤ size.capacity ∧
      (∀ t ∈ w.posts, t.packet.ignored = false) ∧ ∀ p ∈ w.waiting, p ∈ ps := by
  induction ps generalizing n with
  | nil =>
    exact ⟨.nil _, fits, fun t ht => absurd ht List.not_mem_nil, fun p hp => hp⟩
  | cons p ps ih =>
    have rest := fun n => @ih n fun q hq => some q (List.mem_cons_of_mem _ hq)
    have free : (reclaim.advance n).distance reclaim size.slots = n :=
      Counter.distance_advance _ _ (Nat.lt_of_le_of_lt fits size.capacity_lt)
    unfold walk
    dsimp only
    rw [free, Counter.advance_advance]
    split
    · rename_i ignored
      obtain ⟨tiled, room, unmarked, later⟩ := rest n fits
      exact ⟨.skip ignored tiled, room, unmarked, fun q hq => List.mem_cons_of_mem _ (later q hq)⟩
    · rename_i unmarked
      split
      · exact ⟨.nil _, fits, fun t ht => absurd ht List.not_mem_nil, fun q hq => hq⟩
      · rename_i enough
        obtain ⟨tiled, room, unmarked', later⟩ := rest (n + p.fragmentCount) (by omega)
        refine ⟨.post (some p List.mem_cons_self) (by rwa [Counter.advance_advance]), ?_, ?_,
          fun q hq => List.mem_cons_of_mem _ (later q hq)⟩
        · rw [Nat.add_assoc] at room
          exact room
        · intro t ht
          rcases List.mem_cons.mp ht with rfl | ht
          · exact Bool.eq_false_iff.mpr unmarked
          · exact unmarked' t ht

/-! ## Handing back -/

/-- **A posted packet that is done leaves no fewer descriptors than the adapter has not consumed.**
-/
theorem le_load_of_done {p : Packet} {rest : List TxEntry}
    (tiled : Tiled b (⟨p, some (TxPost.last ⟨p, b⟩)⟩ :: rest) (⟨p, b⟩ :: ts) r.producer)
    (fits : load (⟨p, b⟩ :: ts) ≤ r.capacity) {n : Nat}
    (done : n < r.producer.distance (TxPost.last ⟨p, b⟩) r.size.slots) : n ≤ load ts := by
  have some : 0 < p.fragmentCount := tiled.some_fragment ⟨p, b⟩ List.mem_cons_self
  have small : load (⟨p, b⟩ :: ts) < r.size.slots := Nat.lt_of_le_of_lt fits r.size.capacity_lt
  have total : load (⟨p, b⟩ :: ts) = p.fragmentCount + load ts := load_cons _ _
  rw [TxPost.last_eq ⟨p, b⟩ some, tiled.eq_advance_load,
    Counter.distance_advance_advance b r.size (by dsimp only; omega) (by dsimp only; omega)] at done
  dsimp only at done
  omega

end TxRing

end DescriptorRings
