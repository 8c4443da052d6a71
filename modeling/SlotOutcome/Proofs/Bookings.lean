import Mathlib.Data.Multiset.OrderedMonoid
import SlotOutcome.Proofs.Executions
import SlotOutcome.Proofs.OutcomeLaws

/-!
# Who accounts for the entries of the ledger

Each execution of a node adds at most one entry of its own to the ledger, with the id and the tag of
the node. What else was added to the ledger meanwhile, the executions that it called for account
for. This is said of the parts of a pass first, and kept by one part after another.

The exception is a feature that takes over a step that was computed before, with the ledger of that
step. The parts here are those in which nothing is taken over.

## Main definitions

* `Execution.added`, `Execution.computed`: the entries that were added to the ledger during an
  execution, and those of the chain if it was computed then.
* `Execution.RecordsOnce`: an execution has at most one entry of its own.
* `Booking`, `Accounts`: how the executions that a part called for account for its entries.
* `Books`: parts that come with such an account.

## Main results

* `Booking.trans`: the executions of two parts account for what both leave.
* `Books.atom`: an atom adds at most one entry.
-/

namespace SlotOutcome

open Reveal (pending)

/-- An entry has the id and the tag of a definition. -/
def Entry.IsOf (y : Entry) (d : Definition) : Prop := y.id = d.id ∧ y.tag = d.tag

/-- The entries of the steps in the chain of a state. -/
def RoundState.chainEntries (s : RoundState) : List Entry :=
  s.chain.flatMap fun link => link.outcome.ledger

theorem RoundState.chainEntries_of_nil {s : RoundState} (h : s.chain = []) :
    s.chainEntries = [] := by
  rw [chainEntries, h, List.flatMap_nil]

/-- The feature of a definition begins a sequence of steps when it is set to work on a state with a
bag. -/
def Definition.begins (d : Definition) (s : RoundState) (bag : Bag) : Bool :=
  d.tag == "Play" && (pending s).isNone && (bag.findD .nat "Steps" 1).isOk

/-! ### The entries of an execution -/

namespace Execution

/-- The entries that were added to the ledger meanwhile. -/
def added (x : Execution) : Multiset Entry :=
  ↑(x.after.outcome.ledger.drop x.before.outcome.ledger.length)

/-- The feature of the node began a sequence of steps. -/
def begins (x : Execution) : Bool := x.visit.any fun v => v.node.begins x.before v.bag

/-- A sequence of steps was begun meanwhile, so the chain at the end was computed or dropped. -/
def begun (x : Execution) : Bool := x.all.any begins

/-- The entries of the chain if it was computed meanwhile. -/
def computed (x : Execution) : Multiset Entry := ↑(if x.begun then x.after.chainEntries else [])

/-- The visits of executions and of all those below them, the earliest first. -/
def visitsOf (calls : List Execution) : List Visit := (calls.flatMap all).filterMap visit

/-- An execution has at most one entry of its own, and the executions that it called for account for
all others. -/
inductive RecordsOnce (x : Execution) : Prop
  /-- The node may have noted an entry. -/
  | notes {own : List Entry} (hlength : own.length ≤ 1)
      (hown : ∀ y ∈ own, ∃ v ∈ x.visit, y.IsOf v.node)
      (hadded : x.added = ↑own + (x.calls.map added).sum)
      (hcomputed : x.computed ≤ (x.calls.map computed).sum)
  /-- The node began a sequence. It noted nothing, and after the first step it called for executions
  on other states, which may have become the chain. -/
  | begins {here ahead : List Execution} (hbegins : x.begins = true)
      (hcalls : x.calls = here ++ ahead) (hadded : x.added = (here.map added).sum)
      (hcomputed : x.computed ≤ (here.map computed).sum + (ahead.map added).sum)

theorem added_eq {x : Execution} {new : List Entry}
    (h : x.after.outcome.ledger = x.before.outcome.ledger ++ new) : x.added = ↑new := by
  rw [added, h, List.drop_left]

theorem begun_eq (x : Execution) : x.begun = (x.begins || x.calls.any begun) := by
  rw [begun, all_eq, List.any_cons, List.any_flatMap]
  rfl

theorem visitsOf_append (calls calls' : List Execution) :
    visitsOf (calls ++ calls') = visitsOf calls ++ visitsOf calls' := by
  rw [visitsOf, List.flatMap_append, List.filterMap_append]
  rfl

theorem visitsOf_singleton (x : Execution) :
    visitsOf [x] = x.visit.toList ++ visitsOf x.calls := by
  rw [visitsOf, List.flatMap_singleton, all_eq, List.filterMap_cons]
  rcases x.visit with _ | v <;> rfl

end Execution

open Execution (visitsOf visitsOf_append)

/-! ### Bookings -/

/-- How executions account for the entries that a part of a pass leaves. They account for all that
were added to the ledger but `n`, which are those of a definition. They account for the chain if one
of them began a sequence of steps, and else the chain stays or is dropped. -/
structure Booking (d : Definition) (n : Nat) (s : RoundState) (calls : List Execution)
    (s' : RoundState) : Prop where
  entries : ∃ own new : List Entry, own.length ≤ n ∧ (∀ y ∈ own, y.IsOf d) ∧
    s'.outcome.ledger = s.outcome.ledger ++ new ∧
    (↑new : Multiset Entry) = ↑own + (calls.map Execution.added).sum
  computed : calls.any Execution.begun = true →
    (↑s'.chainEntries : Multiset Entry) ≤ (calls.map Execution.computed).sum
  chain : calls.any Execution.begun = false → s'.chain = s.chain ∨ s'.chain = []

namespace Booking

variable {d : Definition} {m n : Nat} {s s' s'' : RoundState} {calls calls' : List Execution}

/-- A part that leaves the ledger, and the chain unless it drops it, calls for nothing. -/
theorem of_same (hledger : s'.outcome.ledger = s.outcome.ledger)
    (hchain : s'.chain = s.chain ∨ s'.chain = []) : Booking d n s [] s' where
  entries := ⟨[], [], Nat.zero_le n, (fun _ hy => nomatch hy),
    by rw [hledger, List.append_nil], rfl⟩
  computed h := nomatch h
  chain _ := hchain

/-- A change is noted with one entry. -/
theorem of_perform {change : Option Change} (h : KeepsLedger s change) :
    Booking d 1 s [] (s.perform d change) where
  entries := by
    refine ⟨change.toList.map fun c => ⟨d.id, d.tag, c.payload⟩, _, ?_, ?_,
      RoundState.ledger_perform h, (add_zero _).symm⟩
    · rw [List.length_map]
      exact Option.length_toList_le
    · intro y hy
      obtain ⟨c, -, rfl⟩ := List.mem_map.mp hy
      exact ⟨rfl, rfl⟩
  computed h := nomatch h
  chain _ := by
    left
    rcases change with _ | change <;> rfl

theorem mono (h : Booking d m s calls s') (hmn : m ≤ n) : Booking d n s calls s' where
  entries := by
    obtain ⟨own, new, hlength, hown⟩ := h.entries
    exact ⟨own, new, hlength.trans hmn, hown⟩
  computed := h.computed
  chain := h.chain

/-- Executions account for all that was added where a definition has no entries. -/
theorem exists_added (h : Booking d 0 s calls s') : ∃ new,
    s'.outcome.ledger = s.outcome.ledger ++ new ∧
      (↑new : Multiset Entry) = (calls.map Execution.added).sum := by
  obtain ⟨own, new, hlength, -, hledger, hnew⟩ := h.entries
  obtain rfl : own = [] := List.eq_nil_of_length_eq_zero (Nat.le_zero.mp hlength)
  exact ⟨new, hledger, hnew.trans (zero_add _)⟩

/-- Executions account for a chain that was not there before. -/
theorem chainEntries_le (h : Booking d n s calls s') (hs : s.chain = []) :
    (↑s'.chainEntries : Multiset Entry) ≤ (calls.map Execution.computed).sum := by
  rcases Bool.eq_false_or_eq_true (calls.any Execution.begun) with hbegun | hbegun
  · exact h.computed hbegun
  · have hnil : s'.chain = [] := by
      rcases h.chain hbegun with hchain | hchain
      · exact hchain.trans hs
      · exact hchain
    rw [RoundState.chainEntries_of_nil hnil]
    exact Multiset.zero_le _

/-- The chain after two parts is that of the second one if it was computed there, and else that of
the first one or nothing. -/
theorem trans (h : Booking d m s calls s') (h' : Booking d n s' calls' s'') :
    Booking d (m + n) s (calls ++ calls') s'' where
  entries := by
    obtain ⟨own, new, hlength, hown, hledger, hnew⟩ := h.entries
    obtain ⟨own', new', hlength', hown', hledger', hnew'⟩ := h'.entries
    refine ⟨own ++ own', new ++ new', ?_, List.forall_mem_append.mpr ⟨hown, hown'⟩, ?_, ?_⟩
    · rw [List.length_append]
      exact Nat.add_le_add hlength hlength'
    · rw [hledger', hledger, List.append_assoc]
    · rw [← Multiset.coe_add, ← Multiset.coe_add, hnew, hnew', List.map_append, List.sum_append]
      exact add_add_add_comm ..
  computed hbegun := by
    rw [List.map_append, List.sum_append]
    rcases Bool.eq_false_or_eq_true (calls'.any Execution.begun) with hsecond | hsecond
    · exact (h'.computed hsecond).trans le_add_self
    · have hfirst : calls.any Execution.begun = true := by
        rwa [List.any_append, hsecond, Bool.or_false] at hbegun
      rcases h'.chain hsecond with hchain | hchain
      · rw [RoundState.chainEntries, hchain]
        exact (h.computed hfirst).trans le_self_add
      · rw [RoundState.chainEntries_of_nil hchain]
        exact Multiset.zero_le _
  chain hbegun := by
    rw [List.any_append] at hbegun
    obtain ⟨hfirst, hsecond⟩ := Bool.or_eq_false_iff.mp hbegun
    rcases h'.chain hsecond with hchain | hchain
    · rw [hchain]
      exact h.chain hfirst
    · exact .inr hchain

end Booking

/-! ### Parts of passes -/

variable {σ : Type} {d : Definition}

/-- How the executions that a part of a pass called for account for what it did: for the visits,
and, as long as no step is taken over, for the states before and after it. -/
structure Accounts (d : Definition) (Books : RoundState → List Execution → RoundState → Prop)
    (p q : Pass (Watched σ)) (calls : List Execution) : Prop where
  stateful : q.state.stateful = p.state.stateful
  visits : q.visits = (visitsOf calls).reverse ++ p.visits
  books : ¬d.Reveals p.state.stateful →
    (∀ v ∈ visitsOf calls, ¬v.node.Reveals p.state.stateful) →
      (∀ x ∈ calls.flatMap Execution.all, x.RecordsOnce) ∧ Books p.state calls q.state

namespace Accounts

variable {B B' B'' : RoundState → List Execution → RoundState → Prop}
  {p q p₁ p₂ p₃ : Pass (Watched σ)} {calls calls' : List Execution}

/-- A part that calls for nothing leaves the visits. -/
theorem of_nothing (hstateful : q.state.stateful = p.state.stateful) (hvisits : q.visits = p.visits)
    (h : ¬d.Reveals p.state.stateful → B p.state [] q.state) : Accounts d B p q [] where
  stateful := hstateful
  visits := hvisits
  books hd _ := ⟨(fun _ hx => nomatch hx), h hd⟩

theorem imp (h : Accounts d B p q calls) (hB : B p.state calls q.state → B' p.state calls q.state) :
    Accounts d B' p q calls where
  stateful := h.stateful
  visits := h.visits
  books hd hvisits := (h.books hd hvisits).imp_right hB

theorem trans (h : Accounts d B p₁ p₂ calls) (h' : Accounts d B' p₂ p₃ calls')
    (hB : B p₁.state calls p₂.state → B' p₂.state calls' p₃.state →
      B'' p₁.state (calls ++ calls') p₃.state) : Accounts d B'' p₁ p₃ (calls ++ calls') where
  stateful := h'.stateful.trans h.stateful
  visits := by
    rw [h'.visits, h.visits, visitsOf_append, List.reverse_append, List.append_assoc]
  books hd hvisits := by
    rw [visitsOf_append] at hvisits
    obtain ⟨hfirst, hsecond⟩ := List.forall_mem_append.mp hvisits
    obtain ⟨honce, hbooks⟩ := h.books hd hfirst
    obtain ⟨honce', hbooks'⟩ := h'.books (by rwa [h.stateful]) (by rwa [h.stateful])
    refine ⟨?_, hB hbooks hbooks'⟩
    rw [List.flatMap_append]
    exact List.forall_mem_append.mpr ⟨honce, honce'⟩

end Accounts

/-- The executions that a part of a pass calls for account for all entries but `n`, which are those
of a definition. -/
def Books (d : Definition) (n : Nat) {α : Type} (m : PassM (Watched σ) α) : Prop :=
  ∀ p r q, m p = (r, q) → ∃ calls, q.source.calls = p.source.calls ++ calls ∧
    Accounts d (Booking d n) p q calls

/-- Accounting for all entries, as a statement that sequencing keeps. -/
def booking (σ : Type) (d : Definition) : Trail σ where
  Rel p _ q calls := Accounts d (Booking d 0) p q calls
  done _ := .of_nothing rfl rfl fun _ => .of_same rfl (.inl rfl)
  failed _ _ _ := .of_nothing rfl rfl fun _ => .of_same rfl (.inl rfl)
  trans h h' := h.trans h' .trans

namespace Books

variable {m n : Nat} {α β : Type} {x : PassM (Watched σ) α} {f : α → PassM (Watched σ) β}

theorem mono (h : Books d m x) (hmn : m ≤ n) : Books d n x := by
  intro p r q hrun
  obtain ⟨calls, hcalls, haccounts⟩ := h p r q hrun
  exact ⟨calls, hcalls, haccounts.imp fun hbooking => hbooking.mono hmn⟩

theorem bind (hx : Books d m x) (hf : ∀ a, Books d n (f a)) : Books d (m + n) (x >>= f) := by
  intro p r q hrun
  rw [bind_run] at hrun
  rcases hm : x p with ⟨e | a, p'⟩ <;> rw [hm] at hrun
  · cases hrun
    exact hx.mono (Nat.le_add_right m n) p _ _ hm
  · obtain ⟨calls, hcalls, haccounts⟩ := hx p _ _ hm
    obtain ⟨calls', hcalls', haccounts'⟩ := hf a p' r q hrun
    exact ⟨calls ++ calls', by rw [hcalls', hcalls, List.append_assoc],
      haccounts.trans haccounts' .trans⟩

/-- The first of two parts has no entries of its own. -/
theorem andThen (hx : Books d 0 x) (hf : ∀ a, Books d n (f a)) : Books d n (x >>= f) := by
  rw [← Nat.zero_add n]
  exact hx.bind hf

/-- The second of two parts has no entries of its own. -/
theorem andDone (hx : Books d n x) (hf : ∀ a, Books d 0 (f a)) : Books d n (x >>= f) := hx.bind hf

theorem look {f : Pass (Watched σ) → PassM (Watched σ) α} (h : ∀ p, Books d n (f p)) :
    Books d n (get >>= f) := fun p r q hrun => h p p r q hrun

/-- A computation without effects calls for nothing. -/
theorem read (y : Except ParamError α) : Books d 0 (liftM y : PassM (Watched σ) α) :=
  (booking σ d).lockstep.read y

theorem withBag (bag : Bag) {x : PassM (Watched σ) Unit} (h : Books d n x) :
    Books d n (withBag bag x) := by
  intro p r q hrun
  cases hrun
  obtain ⟨calls, hcalls, haccounts⟩ := h { p with bag := bag } _ _ rfl
  exact ⟨calls, hcalls, haccounts.stateful, haccounts.visits, haccounts.books⟩

variable [RandomSource σ] {e : Effect} {act : RoundState → Bag → PlanM σ (α × RoundState × Bag)}
  {act' : RoundState → Bag → PlanM (Watched σ) (α × RoundState × Bag)}

/-- An atom calls for nothing. What it adds to the ledger is its own. -/
theorem atomic (hatom : Atom d e act act')
    (h : ∀ s bag w a s' bag' w', act' s bag w = (.ok (a, s', bag'), w') →
      ¬d.Reveals s.stateful → Booking d n s [] s') : Books d n (SlotOutcome.atomic act') := by
  intro p r q hrun
  have hcalls := hatom.calls_eq p.state p.bag p.source
  rw [SlotOutcome.atomic] at hrun
  rcases hact : act' p.state p.bag p.source with ⟨e | ⟨a, s, bag⟩, w⟩ <;>
    rw [hact] at hrun hcalls <;> cases hrun <;>
    refine ⟨[], hcalls.trans (List.append_nil _).symm, ?_⟩
  · exact .of_nothing rfl rfl fun _ => .of_same rfl (.inl rfl)
  · have hstateful := RoundState.stateful_of_setting (hatom.symm.setting_eq hact)
    exact .of_nothing hstateful rfl (h _ _ _ _ _ _ _ hact)

/-- A feature that does not deal with sequences of steps adds at most one entry with each of its
atoms. -/
theorem atom (hatom : Atom d e act act') (he : e.isSequel = false) :
    Books d 1 (SlotOutcome.atomic act') := by
  refine .atomic hatom fun s bag w a s' bag' w' hact _ => ?_
  obtain ⟨change, hkeeps, hstate⟩ := hatom.symm.exists_change he s bag _ ⟨w, w', hact⟩
  obtain rfl : s' = s.perform d change := hstate
  exact .of_perform hkeeps

/-- Drawing adds no entry. -/
theorem drawn {plan : PlanM σ α} {plan' : PlanM (Watched σ) α}
    (hatom : Atom d e (Act.draws plan) (Act.draws plan')) :
    Books d 0 (SlotOutcome.atomic (Act.draws plan')) := by
  refine .atomic hatom fun s bag w a s' bag' w' hact _ => ?_
  obtain ⟨b, w'', -, hpure⟩ := bind_run_eq_ok.mp hact
  cases hpure
  exact .of_same rfl (.inl rfl)

theorem reveals (htag : d.tag = "Replay") :
    Books d 0 (SlotOutcome.atomic (σ := Watched σ) Act.reveals) := by
  refine .atomic (σ := σ) .reveals fun s bag w a s' bag' w' hact hd => ?_
  rw [Act.reveals_eq_of_not_reveals htag hd] at hact
  cases hact
  exact .of_same rfl (.inl rfl)

theorem decides : Books d 0 (SlotOutcome.atomic (σ := Watched σ) Act.decides) := by
  refine .atomic (σ := σ) .decides fun s bag w a s' bag' w' hact _ => ?_
  obtain ⟨ceiling, w'', -, hrest⟩ := bind_run_eq_ok.mp hact
  split at hrest <;> cases hrest
  · exact .of_same rfl (.inl rfl)
  · exact .of_same rfl (.inr rfl)

theorem ended : Books d 0 (SlotOutcome.atomic (σ := Watched σ) (Act.moves Act.ended)) := by
  refine .atomic (σ := σ) .ended fun s bag w a s' bag' w' hact _ => ?_
  cases hact
  exact .of_same rfl (.inr rfl)

end Books

end SlotOutcome
