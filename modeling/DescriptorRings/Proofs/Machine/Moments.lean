import DescriptorRings.Machine.Upper
import Mathlib.Data.List.Chain
import Mathlib.Logic.Relation

/-!
# Every moment of a run

A claim about a run is rarely about its end.  It is about every *moment*: the scene as it stands
after each event, in the middle of a request as well as between two of them.  The machine remembers
its moments, and this file says how a statement about all of them is proved.

A request is cut into *steps*, each of which has at most one event, and that at its end.  A step
leads from a point of the program and a machine to another point and another machine.  A step either
remembers nothing or remembers exactly the scene that it leads to (`Remembers`); so a property that
every step keeps, and that shows in the scene, is a property of every moment
(`always_of_steps`).  That is an induction over the run, done here once.

## Who else moves

Between any two steps the adapter may move, and in its callbacks the upper layer may make requests.
Which moves and which requests is the business of each theorem: `Permitted` restricts the moves that
the adapter has planned, and `Upper.Abides` the replies that the upper layer has laid down.  The
adapter has its turn before each access, and what every permitted move keeps, the turn keeps
(`keeps_turn_of_planned`).
-/

namespace DescriptorRings

open Relation

namespace Machine

/-! ## Recording -/

/-- Recording an event changes the journal and nothing else that can be looked at. -/
@[simp] theorem toScene_record (m : Machine) (e : Event) :
    (m.record e).toScene = { m.toScene with journal := m.journal.add e } := by
  unfold record remember
  cases m.moments <;> rfl

@[simp] theorem agenda_record (m : Machine) (e : Event) : (m.record e).agenda = m.agenda := by
  unfold record remember
  cases m.moments <;> rfl

theorem moments_record (m : Machine) (e : Event) :
    (m.record e).moments = m.moments.map ((m.record e).toScene :: ·) := by
  rw [toScene_record]
  unfold record remember
  cases m.moments <;> rfl

theorem tx_record (m : Machine) (e : Event) : (m.record e).tx = m.tx := by
  rw [toScene_record]

theorem adapter_record (m : Machine) (e : Event) : (m.record e).adapter = m.adapter := by
  rw [toScene_record]

theorem journal_record (m : Machine) (e : Event) : (m.record e).journal = m.journal.add e := by
  rw [toScene_record]

/-- A move of the adapter changes the adapter and the memory. -/
@[simp] theorem toScene_move (m : Machine) (mv : Move) :
    (m.move mv).toScene =
      { m.toScene with
        memory := m.adapter.store mv m.memory
        adapter := m.adapter.move mv
        journal := m.journal.add (.moved mv) } := by
  rw [move, toScene_record]

theorem tx_move (m : Machine) (mv : Move) : (m.move mv).tx = m.tx := by
  rw [toScene_move]

theorem journal_move (m : Machine) (mv : Move) :
    (m.move mv).journal = m.journal.add (.moved mv) := by
  rw [toScene_move]

@[simp] theorem agenda_move (m : Machine) (mv : Move) : (m.move mv).agenda = m.agenda := by
  rw [move, agenda_record]

theorem moments_move (m : Machine) (mv : Move) :
    (m.move mv).moments = m.moments.map ((m.move mv).toScene :: ·) := by
  rw [move, moments_record]

/-! ## Putting a part in place -/

/-- Puts a transmit ring in the place of the one that was there. -/
def setTx (m : Machine) (r : TxRing) : Machine := { m with tx := some r }

/-- Puts an adapter in the place of the one that was there. -/
def setAdapter (m : Machine) (a : Adapter) : Machine := { m with adapter := a }

/-- Reads a register.  The adapter has had its turn. -/
def peek (m : Machine) (r : Register) : Machine := m.record (.read r (m.adapter.read r))

/-- Writes a register.  The adapter has had its turn. -/
def poke (m : Machine) (r : Register) (v : UInt32) : Machine :=
  (m.setAdapter (m.adapter.write r v)).record (.wrote r v)

/-- Writes a transmit descriptor.  The adapter has had its turn. -/
def pokeTx (m : Machine) (slot : Nat) (d : TxDescriptor) : Machine :=
  (m.setAdapter (m.adapter.writeTx slot d)).record (.wroteTx slot d)

/-- Posts a buffer in a receive slot.  The adapter has had its turn. -/
def pokeRx (m : Machine) (slot : Nat) (address : BusAddress) (capacity : UInt32) : Machine :=
  (m.setAdapter (m.adapter.writeRx slot address capacity)).record (.wroteRx slot address capacity)

@[simp] theorem toScene_peek (m : Machine) (r : Register) :
    (m.peek r).toScene =
      { m.toScene with journal := m.journal.add (.read r (m.adapter.read r)) } := by
  rw [peek, toScene_record]

@[simp] theorem toScene_poke (m : Machine) (r : Register) (v : UInt32) :
    (m.poke r v).toScene =
      { m.toScene with
        adapter := m.adapter.write r v
        journal := m.journal.add (.wrote r v) } := by
  rw [poke, toScene_record]
  rfl

@[simp] theorem toScene_pokeTx (m : Machine) (slot : Nat) (d : TxDescriptor) :
    (m.pokeTx slot d).toScene =
      { m.toScene with
        adapter := m.adapter.writeTx slot d
        journal := m.journal.add (.wroteTx slot d) } := by
  rw [pokeTx, toScene_record]
  rfl

@[simp] theorem toScene_pokeRx (m : Machine) (slot : Nat) (address : BusAddress)
    (capacity : UInt32) :
    (m.pokeRx slot address capacity).toScene =
      { m.toScene with
        adapter := m.adapter.writeRx slot address capacity
        journal := m.journal.add (.wroteRx slot address capacity) } := by
  rw [pokeRx, toScene_record]
  rfl

theorem modifyTx_eq_setTx {m : Machine} {r : TxRing} (tx : m.tx = some r) (f : TxRing → TxRing) :
    m.modifyTx f = m.setTx (f r) := by
  rw [modifyTx, tx, Option.map_some, setTx]

theorem tx_modifyTx {m : Machine} {r : TxRing} (tx : m.tx = some r) (f : TxRing → TxRing) :
    (m.modifyTx f).tx = some (f r) := by
  rw [modifyTx_eq_setTx tx, setTx]

/-! ## The adapter's plans -/

/-- Every move on an agenda is of a permitted kind. -/
def Permitted (permits : Move → Prop) (agenda : List (List Move)) : Prop :=
  ∀ moves ∈ agenda, ∀ mv ∈ moves, permits mv

/-! ## The adapter's turn -/

/-- **What every planned move keeps, the adapter's turn keeps.**  The adapter makes moves that it has
planned, and then has fewer plans. -/
theorem keeps_turn_of_planned {P : Machine → Prop} {permits : Move → Prop} {m : Machine}
    (planned : Permitted permits m.agenda)
    (plan : ∀ later, later ⊆ m.agenda → Permitted permits later → P { m with agenda := later })
    (move : ∀ k mv, permits mv → P k → P (k.move mv)) (start : P m) : P m.turn := by
  have moves (ms : List Move) (permitted : ∀ mv ∈ ms, permits mv) (k : Machine) (h : P k) :
      P (ms.foldl Machine.move k) := by
    induction ms generalizing k with
    | nil => exact h
    | cons mv ms ih =>
      exact ih (fun mv' h' => permitted mv' (List.mem_cons_of_mem _ h')) _
        (move k mv (permitted mv List.mem_cons_self) h)
  unfold turn
  cases agenda : m.agenda with
  | nil => exact start
  | cons ms later =>
    rw [agenda] at planned plan
    exact moves ms (planned ms List.mem_cons_self) _ (plan later (List.subset_cons_self _ _)
      fun ms' h' => planned ms' (List.mem_cons_of_mem _ h'))

/-- So it is with what every move keeps, whatever the adapter has planned. -/
theorem keeps_turn {P : Machine → Prop} {m : Machine}
    (plan : ∀ later, later ⊆ m.agenda → P { m with agenda := later })
    (move : ∀ k mv, P k → P (k.move mv)) (start : P m) : P m.turn :=
  have planned : Permitted (fun _ => True) m.agenda := fun _ _ _ _ => trivial
  keeps_turn_of_planned planned (fun later fewer _ => plan later fewer) (fun k mv _ => move k mv) start

/-- **The adapter's turn changes nothing that belongs to software** but the journal. -/
theorem exists_toScene_turn (m : Machine) :
    ∃ a mem j, m.turn.toScene = { m.toScene with adapter := a, memory := mem, journal := j } := by
  refine keeps_turn (P := fun k => ∃ a mem j,
      k.toScene = { m.toScene with adapter := a, memory := mem, journal := j })
    (fun _ _ => ⟨_, _, _, rfl⟩) ?_ ⟨_, _, _, rfl⟩
  rintro k mv ⟨a, mem, j, h⟩
  rw [toScene_move, h]
  exact ⟨_, _, _, rfl⟩

theorem tx_turn (m : Machine) : m.turn.tx = m.tx := by
  obtain ⟨a, mem, j, h⟩ := exists_toScene_turn m
  rw [h]

theorem rx_turn (m : Machine) : m.turn.rx = m.rx := by
  obtain ⟨a, mem, j, h⟩ := exists_toScene_turn m
  rw [h]

theorem poolAt?_turn (m : Machine) (place : Nat) : m.turn.poolAt? place = m.poolAt? place := by
  obtain ⟨a, mem, j, h⟩ := exists_toScene_turn m
  have pools : m.turn.pools = m.pools := by rw [h]
  rw [poolAt?, pools, poolAt?]

theorem tx_write (m : Machine) (r : Register) (v : UInt32) : (m.write r v).tx = m.tx :=
  (tx_record _ _).trans m.tx_turn

theorem rx_write (m : Machine) (r : Register) (v : UInt32) : (m.write r v).rx = m.rx := by
  refine Eq.trans ?_ m.rx_turn
  rw [write, toScene_record]

theorem tx_writeTx (m : Machine) (slot : Nat) (d : TxDescriptor) : (m.writeTx slot d).tx = m.tx :=
  (tx_record _ _).trans m.tx_turn

/-- What the adapter plans after its turn it has planned before. -/
theorem agenda_turn (m : Machine) : m.turn.agenda ⊆ m.agenda := by
  refine keeps_turn (P := fun k => k.agenda ⊆ m.agenda) (fun _ fewer => fewer) (fun k mv h => ?_)
    (List.Subset.refl _)
  rw [agenda_move]
  exact h

/-- A notice is entered in the journal, if at all. -/
theorem exists_toScene_give (m : Machine) (n : Notice) :
    ∃ j, (m.give n).toScene = { m.toScene with journal := j } := by
  unfold give
  split
  · exact ⟨_, toScene_record _ _⟩
  · exact ⟨m.journal, rfl⟩

theorem tx_give (m : Machine) (n : Notice) : (m.give n).tx = m.tx := by
  obtain ⟨j, h⟩ := exists_toScene_give m n
  rw [h]

theorem rx_give (m : Machine) (n : Notice) : (m.give n).rx = m.rx := by
  obtain ⟨j, h⟩ := exists_toScene_give m n
  rw [h]

theorem adapter_give (m : Machine) (n : Notice) : (m.give n).adapter = m.adapter := by
  obtain ⟨j, h⟩ := exists_toScene_give m n
  rw [h]

theorem adapter_giveIf (m : Machine) (condition : Bool) (n : Notice) :
    (m.giveIf condition n).adapter = m.adapter := by
  unfold giveIf
  split
  · exact adapter_give m n
  · rfl

theorem tx_giveIf (m : Machine) (condition : Bool) (n : Notice) :
    (m.giveIf condition n).tx = m.tx := by
  unfold giveIf
  split
  · exact tx_give m n
  · rfl

/-! ## Moments -/

/-- The machine remembers its moments, and all of them have a property. -/
def Always (Q : Scene → Prop) (m : Machine) : Prop :=
  ∃ past, m.moments = some past ∧ ∀ s ∈ past, Q s

/-- Between two machines either nothing was remembered, or the scene of the second was. -/
def Remembers (m m' : Machine) : Prop :=
  m'.moments = m.moments ∨ m'.moments = m.moments.map (m'.toScene :: ·)

theorem remembers_record (m : Machine) (e : Event) : Remembers m (m.record e) :=
  Or.inr (moments_record m e)

theorem remembers_move (m : Machine) (mv : Move) : Remembers m (m.move mv) :=
  Or.inr (moments_move m mv)

theorem Always.of_remembers {Q : Scene → Prop} {m m' : Machine} (h : m.Always Q)
    (step : Remembers m m') (now : Q m'.toScene) : m'.Always Q := by
  obtain ⟨past, hpast, hall⟩ := h
  rcases step with heq | heq
  · exact ⟨past, heq.trans hpast, hall⟩
  · refine ⟨m'.toScene :: past, ?_, ?_⟩
    · rw [heq, hpast, Option.map_some]
    · intro s hs
      rcases List.mem_cons.mp hs with rfl | hs
      · exact now
      · exact hall s hs

/-- The machine remembers its moments, and all of them and the present one have a property. -/
def Throughout (m : Machine) (Q : Scene → Prop) : Prop :=
  ∃ past, m.moments = some past ∧ ∀ s ∈ m.toScene :: past, Q s

/-- The machine remembers its moments, and of any two that follow one another something holds. -/
def Successive (m : Machine) (R : Scene → Scene → Prop) : Prop :=
  ∃ past, m.moments = some past ∧ (m.toScene :: past).IsChain fun later earlier => R earlier later

theorem Throughout.of_remembers {Q : Scene → Prop} {m m' : Machine} (h : m.Throughout Q)
    (step : Remembers m m') (now : Q m'.toScene) : m'.Throughout Q := by
  obtain ⟨past, hpast, hall⟩ := h
  have before : m.Always Q := ⟨past, hpast, fun s hs => hall s (List.mem_cons_of_mem _ hs)⟩
  obtain ⟨past', hpast', hall'⟩ := before.of_remembers step now
  refine ⟨past', hpast', fun s hs => ?_⟩
  rcases List.mem_cons.mp hs with rfl | hs
  · exact now
  · exact hall' s hs

/-- A step keeps what holds of neighbouring moments, if it holds of one and the same moment and can
be chained. -/
theorem Successive.of_remembers {R : Scene → Scene → Prop} {m m' : Machine} (h : m.Successive R)
    (step : Remembers m m') (now : R m.toScene m'.toScene) (refl : ∀ s, R s s)
    (trans : ∀ s s' s'', R s s' → R s' s'' → R s s'') : m'.Successive R := by
  obtain ⟨past, hpast, chain⟩ := h
  rw [List.isChain_cons] at chain
  obtain ⟨last, chain⟩ := chain
  have latest : (m'.toScene :: past).IsChain fun later earlier => R earlier later :=
    List.isChain_cons.mpr ⟨fun s hs => trans _ _ _ (last s hs) now, chain⟩
  rcases step with heq | heq
  · exact ⟨past, heq.trans hpast, latest⟩
  · refine ⟨m'.toScene :: past, by rw [heq, hpast, Option.map_some], ?_⟩
    exact List.isChain_cons_cons.mpr ⟨refl _, latest⟩

/-- Every moment remembered between two machines has a property. -/
def Spans (Q : Scene → Prop) (m m' : Machine) : Prop :=
  ∃ past, m'.moments = m.moments.map (past ++ ·) ∧ ∀ s ∈ past, Q s

namespace Spans

variable {Q Q' : Scene → Prop} {m m' m'' : Machine}

theorem of_moments_eq (Q : Scene → Prop) (h : m'.moments = m.moments) : Spans Q m m' := by
  refine ⟨[], ?_, fun s hs => absurd hs List.not_mem_nil⟩
  rw [h]
  cases m.moments <;> rfl

theorem refl (Q : Scene → Prop) (m : Machine) : Spans Q m m := of_moments_eq Q rfl

theorem trans (h : Spans Q m m') (h' : Spans Q m' m'') : Spans Q m m'' := by
  obtain ⟨past, hpast, all⟩ := h
  obtain ⟨past', hpast', all'⟩ := h'
  refine ⟨past' ++ past, ?_, fun s hs => ?_⟩
  · rw [hpast', hpast]
    cases m.moments <;> simp
  · rcases List.mem_append.mp hs with hs | hs
    · exact all' s hs
    · exact all s hs

theorem mono (h : Spans Q m m') (weaker : ∀ s, Q s → Q' s) : Spans Q' m m' := by
  obtain ⟨past, hpast, all⟩ := h
  exact ⟨past, hpast, fun s hs => weaker s (all s hs)⟩

theorem record {k : Machine} {e : Event} (moments : k.moments = m.moments)
    (now : Q (k.record e).toScene) : Spans Q m (k.record e) := by
  refine ⟨[(k.record e).toScene], ?_, fun s hs => ?_⟩
  · rw [moments_record, moments]
    rfl
  · rw [List.mem_singleton.mp hs]
    exact now

theorem always (h : Spans Q m m') (before : m.Always Q) : m'.Always Q := by
  obtain ⟨past, hpast, all⟩ := h
  obtain ⟨old, hold, all'⟩ := before
  refine ⟨past ++ old, by rw [hpast, hold, Option.map_some], fun s hs => ?_⟩
  rcases List.mem_append.mp hs with hs | hs
  · exact all s hs
  · exact all' s hs

end Spans

/-! ## Runs of steps -/

section Steps

variable {κ : Type} {Step : κ × Machine → κ × Machine → Prop} (Inv : κ × Machine → Prop)
  {Q : Scene → Prop}

/-- What every step keeps, a run keeps. -/
theorem inv_of_steps (keeps : ∀ c c', Step c c' → Inv c → Inv c') {c c' : κ × Machine}
    (run : ReflTransGen Step c c') (start : Inv c) : Inv c' := by
  induction run with
  | refl => exact start
  | tail _ step ih => exact keeps _ _ step ih

/-- **What every step keeps shows at every moment.** -/
theorem always_of_steps (keeps : ∀ c c', Step c c' → Inv c → Inv c')
    (remembers : ∀ c c', Step c c' → Remembers c.2 c'.2)
    (shows : ∀ c, Inv c → Q c.2.toScene) {c c' : κ × Machine} (run : ReflTransGen Step c c')
    (start : Inv c) (past : c.2.Always Q) : c'.2.Always Q := by
  induction run with
  | refl => exact past
  | @tail d d' before step ih =>
    have hd : Inv d := inv_of_steps Inv keeps before start
    exact ih.of_remembers (remembers d d' step) (shows d' (keeps d d' step hd))

theorem throughout_of_steps (keeps : ∀ c c', Step c c' → Inv c → Inv c')
    (remembers : ∀ c c', Step c c' → Remembers c.2 c'.2)
    (shows : ∀ c, Inv c → Q c.2.toScene) {c c' : κ × Machine} (run : ReflTransGen Step c c')
    (start : Inv c) (none : c.2.moments = some []) : c'.2.Throughout Q := by
  have before : c.2.Always Q := ⟨[], none, fun s h => absurd h List.not_mem_nil⟩
  obtain ⟨past, hpast, hall⟩ := always_of_steps Inv keeps remembers shows run start before
  refine ⟨past, hpast, fun s hs => ?_⟩
  rcases List.mem_cons.mp hs with rfl | hs
  · exact shows c' (inv_of_steps Inv keeps run start)
  · exact hall s hs

end Steps

end Machine

/-- In each of its callbacks the upper layer does nothing but a series of permitted acts, whatever
the machine looks like when it is called. -/
def Upper.Abides (u : Upper) (Act : Machine → Machine → Prop) : Prop :=
  ∀ reply ∈ u.replies, ∀ m, ReflTransGen Act m (reply m)

/-- Whoever abides by a rule abides by a wider one. -/
theorem Upper.Abides.mono {u : Upper} {Act Act' : Machine → Machine → Prop} (h : u.Abides Act)
    (within : ∀ m m', Act m m' → ReflTransGen Act' m m') : u.Abides Act' := by
  intro reply hr m
  have run := h reply hr m
  generalize reply m = m' at run
  induction run with
  | refl => exact .refl
  | tail _ act ih => exact ih.trans (within _ _ act)

theorem Upper.abides_silent (Act : Machine → Machine → Prop) : Upper.silent.Abides Act := by
  intro reply h
  exact absurd h List.not_mem_nil

namespace Served

variable {s : Served} {Act : Machine → Machine → Prop}

/-- What is done in a callback is a series of permitted acts. -/
theorem run_reply (abides : s.upper.Abides Act) : ReflTransGen Act s.machine s.reply.machine := by
  unfold reply
  cases hr : s.upper.replies with
  | nil => exact .refl
  | cons reply later =>
    refine abides reply ?_ s.machine
    rw [hr]
    exact List.mem_cons_self

/-- The callbacks to come are bound by the same rule. -/
theorem abides_reply (abides : s.upper.Abides Act) : s.reply.upper.Abides Act := by
  unfold reply
  cases hr : s.upper.replies with
  | nil => exact abides
  | cons reply later =>
    intro reply' h
    refine abides reply' ?_
    rw [hr]
    exact List.mem_cons_of_mem _ h

end Served

end DescriptorRings
