import Mathlib.Data.Multiset.Bind
import Mathlib.Logic.Relation
import SlotOutcome.Random.Pool

/-!
# Threads that share a pool

Rounds that run at the same time share a pool. No lock guards its generators: a thread owns a slot
from the moment at which it sets the flag until it clears it. Setting the flag, taking the generator
out, writing it back, clearing the flag and appending a slot are steps of their own, and the steps
of the threads come in any order.

```text
                   flag was set: next slot
                  ┌───────┐
                  ▼       │  flag was clear                get
  get, exercise ─► trying ┼───────────────► taking ──────────────► a handle, idle
                  ▲  ▲    │                  │  │ exercise
                  │  │    │     no generator │  └──► returning ──► freeing ──► trying, idle
                  │  │    │                  ▼            ▲
                  │  └────┼──── retreating ◄─┘            └── drop
                  │       │ get, and no slot left
                  │       └───────────────► growing ──► counting ──► a handle, idle
```

What a thread does between two of these steps touches nothing that is shared. So a pass draws on
the generator in the step that takes it, and a walk is advanced in the step before.

The slots can be read by many threads at once, and appending waits for `get` to have gone through
them. A pass goes through the slots that were there when it began.

## Main definitions

* `Pool.Thread`: what a thread is about to do.
* `Pool.Move`: a step of one thread.
* `Pool.Sharing`, `Pool.Sharing.Step`, `Pool.Sharing.Run`: a pool with its handles and threads, and
  what they can come to.

## Main results

* `Pool.Sharing.Run.get`, `Pool.Sharing.Run.put`, `Pool.Sharing.Run.exercise`: a thread that is not
  disturbed does what the operation of the pool does.
-/

namespace SlotOutcome.Pool

/-! ### Threads -/

/-- What a thread goes through the slots for. -/
inductive Errand where
  /-- A generator to lend. -/
  | get
  /-- Exercising the idle generators: the most words thrown away on one of them, and how many have
  been exercised. -/
  | exercise (most count : ℕ)
deriving DecidableEq

/-- A walk through the slots in their order. -/
structure Walk where
  errand : Errand
  /-- The slot that is tried next. -/
  place : ℕ
  /-- How many slots there were when the walk began. -/
  stop : ℕ
deriving DecidableEq

/-- The walk at the next slot. -/
def Walk.next (walk : Walk) : Walk := { walk with place := walk.place + 1 }

/-- What a thread is about to do. -/
inductive Thread (γ : Type) where
  /-- Nothing: it is between two operations on the pool. -/
  | idle
  /-- Set the flag of the next slot, if it is clear; or end the walk. -/
  | trying (walk : Walk)
  /-- Take the generator out of the slot, whose flag it has set. -/
  | taking (walk : Walk)
  /-- Clear the flag again, as there was no generator. -/
  | retreating (walk : Walk)
  /-- Write a generator back, and then go on with a walk or be done. -/
  | returning (loan : Loan γ) (walk : Option Walk)
  /-- Clear the flag of a slot whose generator is back. -/
  | freeing (place : ℕ) (walk : Option Walk)
  /-- Append a slot for a generator that was seeded. -/
  | growing (generator : γ)
  /-- Count the generator of the slot that was appended. -/
  | counting (loan : Loan γ)
deriving DecidableEq

namespace Thread

variable {γ : Type}

/-- What comes after a slot was freed. -/
def resume : Option Walk → Thread γ
  | none => idle
  | some walk => trying walk

/-- The thread goes through the slots to get one, and no slot may be appended meanwhile. -/
def Scans : Thread γ → Prop
  | trying walk => walk.errand = .get
  | taking walk => walk.errand = .get
  | retreating walk => walk.errand = .get
  | _ => False

/-- The thread is about to append a slot. -/
def Appends : Thread γ → Prop
  | growing _ => True
  | _ => False

end Thread

/-! ### Steps -/

variable {γ : Type} [Generator γ]

/-- The pool with the flag of a slot set or cleared. -/
def setFlag (pool : Pool γ) (place : ℕ) (inUse : Bool) : Pool γ :=
  { pool with slots := pool.slots.modify place fun slot => { slot with inUse := inUse } }

/-- The pool with a generator in a slot, or with none. -/
def setCell (pool : Pool γ) (place : ℕ) (generator : Option γ) : Pool γ :=
  { pool with slots := pool.slots.modify place fun slot => { slot with generator := generator } }

/-- A step of one thread: the pool, what the thread is about to do and the handles that it uses up,
before the step; the pool, what the thread is about to do and the handles that it gives out, after
it. -/
inductive Move : Pool γ → Thread γ → Multiset (Loan γ) →
    Pool γ → Thread γ → Multiset (Loan γ) → Prop
  | beginGet {pool} : Move pool .idle 0 pool (.trying ⟨.get, 0, pool.size⟩) 0
  | beginExercise {pool} (most : ℕ) :
    Move pool .idle 0 pool (.trying ⟨.exercise most 0, 0, pool.size⟩) 0
  /-- A handle is dropped; `put` does nothing else. -/
  | drop {pool} (loan : Loan γ) : Move pool .idle {loan} pool (.returning loan none) 0
  /-- A draw from a handle. -/
  | draw {pool} (loan : Loan γ) (n : ℕ) :
    Move pool .idle {loan} pool .idle {⟨loan.slot, ((draw n : DrawM γ ℕ) loan.generator).2⟩}
  /-- The compare-and-swap sets a flag that was clear. -/
  | acquire {pool walk slot} (hplace : walk.place < walk.stop)
      (hslot : pool.slots[walk.place]? = some slot) (hclear : slot.inUse = false) :
    Move pool (.trying walk) 0 (pool.setFlag walk.place true) (.taking walk) 0
  /-- The compare-and-swap fails on a flag that was set. -/
  | pass {pool walk slot} (hplace : walk.place < walk.stop)
      (hslot : pool.slots[walk.place]? = some slot) (hset : slot.inUse = true) :
    Move pool (.trying walk) 0 pool (.trying walk.next) 0
  | lend {pool walk slot generator} (hget : walk.errand = .get)
      (hslot : pool.slots[walk.place]? = some slot) (hfull : slot.generator = some generator) :
    Move pool (.taking walk) 0 (pool.setCell walk.place none) .idle {⟨walk.place, generator⟩}
  /-- A pass takes a generator out and throws words away. -/
  | burn {pool walk slot generator most count} (hpass : walk.errand = .exercise most count)
      (hslot : pool.slots[walk.place]? = some slot) (hfull : slot.generator = some generator) :
    Move pool (.taking walk) 0 (pool.setCell walk.place none)
      (.returning ⟨walk.place, Slot.burn most generator⟩
        (some ⟨.exercise most (count + 1), walk.place + 1, walk.stop⟩)) 0
  | miss {pool walk slot} (hslot : pool.slots[walk.place]? = some slot)
      (hempty : slot.generator = none) : Move pool (.taking walk) 0 pool (.retreating walk) 0
  | retreat {pool walk} :
    Move pool (.retreating walk) 0 (pool.setFlag walk.place false) (.trying walk.next) 0
  | writeBack {pool loan walk} :
    Move pool (.returning loan walk) 0 (pool.setCell loan.slot (some loan.generator))
      (.freeing loan.slot walk) 0
  | free {pool place walk} :
    Move pool (.freeing place walk) 0 (pool.setFlag place false) (.resume walk) 0
  /-- All slots were passed, and the system provides a seed. -/
  | seed {pool walk} (hget : walk.errand = .get) (hend : walk.place = walk.stop)
      (seed : Generator.Seed γ) :
    Move pool (.trying walk) 0 pool (.growing (Generator.ofSeed seed)) 0
  /-- All slots were passed, and the system provides no seed: `get` fails. -/
  | unseeded {pool walk} (hget : walk.errand = .get) (hend : walk.place = walk.stop) :
    Move pool (.trying walk) 0 pool .idle 0
  | append {pool generator} :
    Move pool (.growing generator) 0 { pool with slots := pool.slots ++ [.checkedOut] }
      (.counting ⟨pool.size, generator⟩) 0
  | count {pool loan} :
    Move pool (.counting loan) 0 { pool with created := pool.created + 1 } .idle {loan}
  | finish {pool walk most count} (hpass : walk.errand = .exercise most count)
      (hend : walk.place = walk.stop) :
    Move pool (.trying walk) 0 { pool with exercised := pool.exercised + count } .idle 0

/-- A pool that is shared, the handles that have been given out, and the threads. Any thread may use
or drop any handle. -/
structure Sharing (γ : Type) [Generator γ] where
  pool : Pool γ
  handles : Multiset (Loan γ)
  threads : Multiset (Thread γ)

namespace Sharing

/-- A new pool and idle threads. -/
def start (entropy : ℕ → Generator.Seed γ) (settings : PoolSettings) (threads : ℕ) : Sharing γ :=
  ⟨.start entropy settings, 0, .replicate threads .idle⟩

/-- One of the threads makes a step. -/
inductive Step : Sharing γ → Sharing γ → Prop
  | move {pool pool' thread thread' taken given handles others}
      (h : Move pool thread taken pool' thread' given)
      (hlock : thread.Appends → ∀ other ∈ others, ¬other.Scans) :
    Step ⟨pool, taken + handles, thread ::ₘ others⟩ ⟨pool', given + handles, thread' ::ₘ others⟩

/-- Any number of steps. -/
abbrev Run : Sharing γ → Sharing γ → Prop := Relation.ReflTransGen Step

end Sharing

/-! ### A thread that is not disturbed -/

section Split

variable {pool : Pool γ} {front back : List (Slot γ)} {slot : Slot γ} {place : ℕ}

theorem getElem?_split (h : pool.slots = front ++ slot :: back) (hplace : place = front.length) :
    pool.slots[place]? = some slot := by
  simp [h, hplace]

theorem setFlag_split (h : pool.slots = front ++ slot :: back) (hplace : place = front.length)
    (inUse : Bool) : pool.setFlag place inUse =
      { pool with slots := front ++ ⟨inUse, slot.generator⟩ :: back } := by
  rw [setFlag, h, hplace, List.modify_eq_set_getElem?]
  simp

theorem setCell_split (h : pool.slots = front ++ slot :: back) (hplace : place = front.length)
    (generator : Option γ) : pool.setCell place generator =
      { pool with slots := front ++ ⟨slot.inUse, generator⟩ :: back } := by
  rw [setCell, h, hplace, List.modify_eq_set_getElem?]
  simp

end Split

omit [Generator γ] in
theorem Slot.acquire?_eq_some {slot rest : Slot γ} {generator : γ}
    (h : slot.acquire? = some (generator, rest)) :
    slot = .idle generator ∧ rest = checkedOut := by
  rcases slot with ⟨_ | _, _ | g⟩ <;> cases h
  exact ⟨rfl, rfl⟩

omit [Generator γ] in
theorem Slot.acquire?_eq_none {slot : Slot γ} (h : slot.acquire? = none) :
    slot.inUse = true ∨ slot = ⟨false, none⟩ := by
  rcases slot with ⟨_ | _, _ | g⟩
  · exact .inr rfl
  · cases h
  · exact .inl rfl
  · exact .inl rfl

namespace Sharing

variable {pool pool' : Pool γ} {handles : Multiset (Loan γ)} {others : Multiset (Thread γ)}
  {thread thread' : Thread γ} {loan : Loan γ}

/-- A step that neither uses up nor gives out a handle. -/
theorem Run.of_silent (h : Move pool thread 0 pool' thread' 0)
    (hlock : thread.Appends → ∀ other ∈ others, ¬other.Scans) :
    Run ⟨pool, handles, thread ::ₘ others⟩ ⟨pool', handles, thread' ::ₘ others⟩ := by
  have hstep : Step ⟨pool, 0 + handles, _⟩ ⟨pool', 0 + handles, _⟩ := .move h hlock
  rw [zero_add] at hstep
  exact .single hstep

/-- A step that gives out a handle. -/
theorem Run.of_given (h : Move pool thread 0 pool' thread' {loan})
    (hlock : thread.Appends → ∀ other ∈ others, ¬other.Scans) :
    Run ⟨pool, handles, thread ::ₘ others⟩ ⟨pool', loan ::ₘ handles, thread' ::ₘ others⟩ := by
  have hstep : Step ⟨pool, 0 + handles, _⟩ ⟨pool', {loan} + handles, _⟩ := .move h hlock
  rw [zero_add, Multiset.singleton_add] at hstep
  exact .single hstep

/-- A step that uses up a handle. -/
theorem Run.of_taken (h : Move pool thread {loan} pool' thread' 0)
    (hlock : thread.Appends → ∀ other ∈ others, ¬other.Scans) :
    Run ⟨pool, loan ::ₘ handles, thread ::ₘ others⟩ ⟨pool', handles, thread' ::ₘ others⟩ := by
  have hstep : Step ⟨pool, {loan} + handles, _⟩ ⟨pool', 0 + handles, _⟩ := .move h hlock
  rw [zero_add, Multiset.singleton_add] at hstep
  exact .single hstep

section Walks

variable {front back : List (Slot γ)} {slot : Slot γ} {walk : Walk} {generator : γ}

/-- A slot without a generator to take is passed. -/
theorem Run.skip (hslots : pool.slots = front ++ slot :: back) (hnone : slot.acquire? = none)
    (hplace : walk.place = front.length) (hstop : walk.place < walk.stop) :
    Run ⟨pool, handles, .trying walk ::ₘ others⟩ ⟨pool, handles, .trying walk.next ::ₘ others⟩ := by
  have hslot := getElem?_split hslots hplace
  rcases Slot.acquire?_eq_none hnone with hset | rfl
  · exact .of_silent (.pass hstop hslot hset) False.elim
  · have hsplit : (pool.setFlag walk.place true).slots = front ++ ⟨true, none⟩ :: back := by
      rw [setFlag_split hslots hplace]
    have hretreat : Move (pool.setFlag walk.place true) (.retreating walk) 0 _ _ 0 := .retreat
    rw [setFlag_split hsplit hplace, setFlag, ← hslots] at hretreat
    exact ((Run.of_silent (.acquire hstop hslot rfl) False.elim).trans
      (Run.of_silent (.miss (getElem?_split hsplit hplace) rfl) False.elim)).trans
        (Run.of_silent hretreat False.elim)

/-- An idle slot gets an owner. -/
theorem Run.own (hslots : pool.slots = front ++ .idle generator :: back)
    (hplace : walk.place = front.length) (hstop : walk.place < walk.stop) :
    Run ⟨pool, handles, .trying walk ::ₘ others⟩
      ⟨{ pool with slots := front ++ ⟨true, some generator⟩ :: back }, handles,
        .taking walk ::ₘ others⟩ := by
  have hacquire := Move.acquire hstop (getElem?_split hslots hplace) rfl
  rw [setFlag_split hslots hplace] at hacquire
  exact .of_silent hacquire False.elim

/-- A generator goes back to its slot, and the slot is idle. -/
theorem Run.release {next : Option Walk} (hslots : pool.slots = front ++ slot :: back) :
    Run ⟨pool, handles, .returning ⟨front.length, generator⟩ next ::ₘ others⟩
      ⟨{ pool with slots := front ++ .idle generator :: back }, handles,
        .resume next ::ₘ others⟩ := by
  have hback : Move pool (.returning ⟨front.length, generator⟩ next) 0 _ _ 0 := .writeBack
  have hsplit : (pool.setCell front.length (some generator)).slots =
      front ++ ⟨slot.inUse, some generator⟩ :: back := by
    rw [setCell_split hslots rfl]
  have hfree : Move (pool.setCell front.length (some generator)) (.freeing front.length next) 0
    _ _ 0 := .free
  rw [setFlag_split hsplit rfl] at hfree
  exact (Run.of_silent hback False.elim).trans (Run.of_silent hfree False.elim)

end Walks

/-- A thread that goes through the slots alone lends the first idle generator. -/
theorem Run.find {front back slots : List (Slot γ)} (hslots : pool.slots = front ++ back)
    (hfirst : takeFirst back = some (loan, slots)) :
    Run ⟨pool, handles, .trying ⟨.get, front.length, pool.size⟩ ::ₘ others⟩
      ⟨{ pool with slots := front ++ slots },
        ⟨front.length + loan.slot, loan.generator⟩ ::ₘ handles, .idle ::ₘ others⟩ := by
  induction back generalizing front loan slots with
  | nil => cases hfirst
  | cons slot back ih =>
    have hstop : front.length < pool.size := by simp [size, hslots]
    rw [takeFirst] at hfirst
    rcases hacquire : slot.acquire? with _ | ⟨generator, rest⟩
    · rw [hacquire] at hfirst
      obtain ⟨⟨loan, slots⟩, hnext, hmap⟩ := Option.map_eq_some_iff.mp hfirst
      cases hmap
      have hfound := ih (hslots.trans (List.append_cons front slot back)) hnext
      refine (Run.skip hslots hacquire rfl hstop).trans ?_
      simpa [Walk.next, Nat.add_assoc, Nat.add_comm 1] using hfound
    · obtain ⟨rfl, rfl⟩ := Slot.acquire?_eq_some hacquire
      cases hfirst
      refine (Run.own hslots rfl hstop).trans (Run.of_given ?_ False.elim)
      have hlend : Move { pool with slots := front ++ ⟨true, some generator⟩ :: back }
          (.taking ⟨.get, front.length, pool.size⟩) 0 _ .idle {⟨front.length, generator⟩} :=
        .lend rfl (getElem?_split rfl rfl) rfl
      rw [setCell_split rfl rfl] at hlend
      exact hlend

/-- A thread that goes through the slots alone and finds none idle comes to the end. -/
theorem Run.findNone {front back : List (Slot γ)} (hslots : pool.slots = front ++ back)
    (hnone : takeFirst back = none) :
    Run ⟨pool, handles, .trying ⟨.get, front.length, pool.size⟩ ::ₘ others⟩
      ⟨pool, handles, .trying ⟨.get, pool.size, pool.size⟩ ::ₘ others⟩ := by
  induction back generalizing front with
  | nil =>
    have hsize : pool.size = front.length := by simp [size, hslots]
    rw [hsize]
  | cons slot back ih =>
    have hstop : front.length < pool.size := by simp [size, hslots]
    rw [takeFirst] at hnone
    rcases hacquire : slot.acquire? with _ | ⟨generator, rest⟩
    · rw [hacquire] at hnone
      have hfound := ih (hslots.trans (List.append_cons front slot back))
        (Option.map_eq_none_iff.mp hnone)
      refine (Run.skip hslots hacquire rfl hstop).trans ?_
      simpa [Walk.next] using hfound
    · rw [hacquire] at hnone
      cases hnone

/-- A thread that goes through the slots alone exercises every idle generator. -/
theorem Run.exerciseAll {front back : List (Slot γ)} {stop : ℕ} (most count : ℕ)
    (hslots : pool.slots = front ++ back) (hstop : stop = pool.size) :
    Run ⟨pool, handles, .trying ⟨.exercise most count, front.length, stop⟩ ::ₘ others⟩
      ⟨{ pool with slots := front ++ back.map (Slot.exercise most) }, handles,
        .trying ⟨.exercise most (count + back.countP fun slot => slot.acquire?.isSome), stop, stop⟩
          ::ₘ others⟩ := by
  induction back generalizing pool front count with
  | nil =>
    have hsize : stop = front.length := by simp [hstop, size, hslots]
    have hsame : ({ pool with slots := front ++ [] } : Pool γ) = pool := by rw [← hslots]
    rw [List.map_nil, hsame, List.countP_nil, hsize]
    exact .refl
  | cons slot back ih =>
    have hlt : front.length < stop := by simp [hstop, size, hslots]
    rcases hacquire : slot.acquire? with _ | ⟨generator, rest⟩
    · have hrest := ih count (hslots.trans (List.append_cons front slot back)) hstop
      refine (Run.skip hslots hacquire rfl hlt).trans ?_
      simpa [Walk.next, Slot.exercise, hacquire] using hrest
    · obtain ⟨rfl, rfl⟩ := Slot.acquire?_eq_some hacquire
      have hburn : Move { pool with slots := front ++ ⟨true, some generator⟩ :: back }
          (.taking ⟨.exercise most count, front.length, stop⟩) 0 _
          (.returning ⟨front.length, Slot.burn most generator⟩
            (some ⟨.exercise most (count + 1), front.length + 1, stop⟩)) 0 :=
        .burn rfl (getElem?_split rfl rfl) rfl
      rw [setCell_split rfl rfl] at hburn
      have hexercised : Slot.exercise most (.idle generator) = .idle (Slot.burn most generator) :=
        rfl
      refine (Run.own hslots rfl hlt).trans ((Run.of_silent hburn False.elim).trans ?_)
      refine (Run.release rfl).trans ?_
      have hrest := @ih { pool with slots := front ++ .idle (Slot.burn most generator) :: back }
        (front ++ [.idle (Slot.burn most generator)]) (count + 1) (List.append_cons _ _ _)
        (by simp [hstop, size, hslots])
      simpa [Thread.resume, hexercised, hacquire, Nat.add_assoc, Nat.add_comm 1] using hrest

/-- A thread that gets a generator without being disturbed gets that of the pool. -/
theorem Run.get (hlock : ∀ other ∈ others, ¬other.Scans) :
    Run ⟨pool, handles, .idle ::ₘ others⟩
      ⟨pool.get.2, pool.get.1 ::ₘ handles, .idle ::ₘ others⟩ := by
  refine (Run.of_silent .beginGet False.elim).trans ?_
  rcases hfirst : takeFirst pool.slots with _ | ⟨loan, slots⟩
  · have hget : pool.get = (⟨pool.size, Generator.ofSeed (pool.entropy pool.created)⟩,
        { pool with slots := pool.slots ++ [.checkedOut], created := pool.created + 1 }) := by
      rw [Pool.get, hfirst]
    rw [hget]
    refine (Run.findNone (List.nil_append _).symm hfirst).trans ?_
    refine (Run.of_silent (.seed rfl rfl (pool.entropy pool.created)) False.elim).trans ?_
    exact (Run.of_silent .append fun _ => hlock).trans (Run.of_given .count False.elim)
  · have hget : pool.get = (loan, { pool with slots := slots }) := by rw [Pool.get, hfirst]
    have hfound : Run ⟨pool, handles, _ ::ₘ others⟩ _ :=
      Run.find (List.nil_append _).symm hfirst
    simpa [hget] using hfound

/-- A thread that drops a handle without being disturbed puts the generator into the pool. -/
theorem Run.put (hslot : loan.slot < pool.size) :
    Run ⟨pool, loan ::ₘ handles, .idle ::ₘ others⟩ ⟨pool.put loan, handles, .idle ::ₘ others⟩ := by
  refine (Run.of_taken (.drop loan) False.elim).trans ?_
  have hlength : loan.slot < pool.slots.length := hslot
  obtain ⟨front, back, hslots, hfront, hset⟩ :
      ∃ front back, pool.slots = front ++ pool.slots[loan.slot] :: back ∧
        front.length = loan.slot ∧
          pool.slots.set loan.slot (.idle loan.generator) = front ++ .idle loan.generator :: back :=
    List.exists_of_set hlength
  have hrelease :
      Run ⟨pool, handles, .returning ⟨front.length, loan.generator⟩ none ::ₘ others⟩ _ :=
    Run.release hslots
  rw [hfront] at hrelease
  rw [Pool.put, hset]
  exact hrelease

/-- A thread that exercises the generators without being disturbed does so as the pool does. -/
theorem Run.exercise (most : ℕ) :
    Run ⟨pool, handles, .idle ::ₘ others⟩
      ⟨(pool.exercise most).2, handles, .idle ::ₘ others⟩ := by
  refine (Run.of_silent (.beginExercise most) False.elim).trans ?_
  refine (Run.exerciseAll most 0 (List.nil_append _).symm rfl).trans ?_
  rw [Nat.zero_add]
  exact Run.of_silent (.finish rfl rfl) False.elim

end Sharing

end SlotOutcome.Pool
