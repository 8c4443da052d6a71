import Mathlib.Algebra.BigOperators.Group.List.Basic
import SlotOutcome.Proofs.Bookings
import SlotOutcome.Proofs.StakeOfSteps

/-!
# Every entry of the ledger has an owner

Each feature adds at most one entry of its own to the ledger, before, after or between the calls of
its children. A feature that computes steps adds none: its children add theirs to the ledger of the
state during the first step, and after it to those of steps that may become the chain. So all
entries that a pass leaves can be handed to the visits of the pass, no two to the same.

```text
  Play ──► first step      RepeatActivator   ●          ledger of the state     ● ○
           │                 AwardFreespins    ○
           └► second step   RepeatActivator   ●          ledger of the link      ● ○
                              AwardFreespins    ○
```

## Main definitions

* `Sequence`: how executions account for what a sequence of steps leaves.
* `Owned`: entries can be handed to visits, no two to the same.

## Main results

* `Definition.watch_books`: every execution in a pass has at most one entry of its own.
* `Execution.entries_owned`: what an execution leaves belongs to its visits.
* `trigger_owned`: what a pass leaves belongs to its visits.
-/

namespace SlotOutcome

open Execution (visitsOf visitsOf_append)
open Reveal (pending)

/-! ### Features -/

variable {σ : Type} {d : Definition}

theorem fireAll_books {children : List (Child (Watched σ))}
    (hchildren : ∀ c ∈ children, Books d 0 c.trigger) : Books d 0 (fireAll children) := by
  obtain ⟨_, h⟩ := (booking σ d).children_keep hchildren
  exact (booking σ d).lockstep.fireAll h

section Features

variable [RandomSource σ] {e : Effect} {children : List (Child (Watched σ))}

/-- A feature that calls no others adds at most one entry. -/
theorem leaf_books {plan : RoundState → Bag → PlanM σ (Option Change × Bag)}
    {plan' : RoundState → Bag → PlanM (Watched σ) (Option Change × Bag)}
    (h : e.leaf? = some plan) (h' : e.leaf? = some plan') : Books d 1 (e.run d children) := by
  rw [Effect.run_leaf h']
  exact .atom (.leaf h h') (Effect.isSequel_of_leaf? h)

variable (hchildren : ∀ c ∈ children, Books d 0 c.trigger)

include hchildren

/-- One entry is noted when the child was called that was drawn or forced. -/
theorem weighted_books : Books d 1 (Branch.weighted d children) := by
  obtain ⟨_, h⟩ := (booking σ d).children_keep hchildren
  have hfireAt (index : Nat) : Books d 0 (fireAt children index) :=
    (booking σ d).lockstep.fireAt h index
  have hnote (index : Nat) : Books d 1 (do
      let p ← get
      note d ⟨p.state.outcome, Payload.choice index⟩ : PassM (Watched σ) Unit) := by
    rw [get_note_eq_atomic]
    exact .atom (σ := σ) (.choice index) rfl
  have hdrawn (weights : Option (List Nat)) : Books d 0 (fireDrawn children weights) := by
    unfold fireDrawn
    rw [liftM_eq_atomic]
    refine .andThen (.drawn (σ := σ) (.pick weights _)) fun index => ?_
    exact .andThen (hfireAt index) fun _ => (booking σ d).lockstep.pure (σ := σ) _
  refine .look fun p => .andThen (.read _) fun forced => ?_
  rcases forced with _ | forced
  · refine .andThen (.read _) fun weights => ?_
    exact .andThen (hdrawn weights) hnote
  · refine .andThen (hfireAt forced) fun _ => ?_
    exact .andThen ((booking σ d).lockstep.pure (σ := σ) forced) hnote

/-- A feature that does not compute steps adds at most one entry of its own. -/
theorem run_books (htag : d.tag = e.tag) (he : e ≠ .play) : Books d 1 (e.run d children) := by
  obtain ⟨_, h⟩ := (booking σ d).children_keep hchildren
  let L : Lockstep σ (Watched σ) := (booking σ d).lockstep
  have hfire : Books d 0 (fireAll children) := fireAll_books hchildren
  have hthen (fire : Bool) : Books d 0 (if fire then fireAll children else pure ()) :=
    L.ite _ (L.fireAll h) (L.pure ())
  have hone {m : PassM (Watched σ) Unit} (hm : Books d 0 m) : Books d 1 m := hm.mono (Nat.zero_le 1)
  cases e
  case activator => exact hone hfire
  case filterActivator => exact hone (L.filtered h)
  case orderedActivator => exact hone (L.ordered h)
  case weightedActivator => exact weighted_books hchildren
  case conditionalActivator => exact hone (L.conditional h)
  case probabilityActivator =>
    refine hone (L.byChance (d := d) h fun hatom => ?_)
    cases hatom with
    | leaf hplan => cases hplan
    | chance probability => exact Books.drawn (σ := σ) (.chance probability)
  case phaseActivator => exact hone (L.inPhases h)
  case repeatActivator =>
    simp only [Effect.run, repeated_eq]
    exact .andDone (.atom (σ := σ) .counts rfl) (L.times h)
  case weightedReelset =>
    simp only [Effect.run, reelset_eq]
    exact .andDone (.atom (σ := σ) .chooses rfl) fun _ => hfire
  case countTrigger =>
    simp only [Effect.run, byCount_eq]
    exact .andDone (.atom (σ := σ) .counting rfl) hthen
  case symbolTrigger =>
    simp only [Effect.run, byCell_eq]
    refine .andDone (.atom (σ := σ) .seeking rfl) fun positions => ?_
    have hcell (position : Nat) :
        L.Rel (Trigger.atCell _ position) (Trigger.atCell children position) :=
      (⟨fun _ => L, L.view⟩ : BagLockstep σ (Watched σ)).atCell (fun _ => h)
        (fun _ _ _ _ _ hm => Books.withBag _ hm) .empty position
    exact L.forM hcell positions
  case play => exact absurd rfl he
  case replay =>
    simp only [Effect.run, replay_eq]
    exact hone (.andThen (.reveals htag) hthen)
  case replayContinue =>
    simp only [Effect.run, goOn_eq]
    exact hone (.andThen .decides hthen)
  case replayAbort => exact hone (.andThen .ended fun _ => hfire)
  all_goals exact leaf_books rfl rfl

end Features

/-! ### Computing steps -/

section Steps

variable {children : List (Child (Watched σ))} (hchildren : ∀ c ∈ children, Books d 0 c.trigger)

/-- How executions account for steps: the ledgers of the steps hold no other entries than those that
the executions added. -/
def Stepped (links : List RoundState) (_ : RoundState) (calls : List Execution) (_ : RoundState) :
    Prop :=
  (↑(links.flatMap fun link => link.outcome.ledger) : Multiset Entry) ≤
    (calls.map Execution.added).sum

theorem Stepped.none {s s' : RoundState} {calls : List Execution} : Stepped [] s calls s' :=
  Multiset.zero_le _

theorem Stepped.append {links links' : List RoundState} {s s' s'' : RoundState}
    {calls calls' : List Execution} (h : Stepped links s calls s')
    (h' : Stepped links' s' calls' s'') : Stepped (links ++ links') s (calls ++ calls') s'' := by
  rw [Stepped, List.flatMap_append, ← Multiset.coe_add, List.map_append, List.sum_append]
  exact add_le_add h h'

include hchildren

/-- The executions of a step account for its ledger, which begins empty. -/
theorem onStep_accounts {previous : RoundState} {bag : Bag} {p q : Pass (Watched σ)}
    {r : Except FeatureError RoundState} (hprevious : previous.stateful = p.state.stateful)
    (hrun : onStep { previous.nextStep with replay := .start } bag (fireAll children) p = (r, q)) :
    q.state = p.state ∧ (∀ step, r = .ok step → step.stateful = p.state.stateful) ∧
      ∃ calls, q.source.calls = p.source.calls ++ calls ∧
        Accounts d (Stepped r.toOption.toList) p q calls := by
  let start : RoundState := { previous.nextStep with replay := .start }
  have hstart : start.stateful = p.state.stateful := hprevious
  rcases hfire : fireAll children { p with state := start, bag := bag } with ⟨r', q'⟩
  obtain ⟨calls, hcalls, haccounts⟩ := fireAll_books hchildren _ _ _ hfire
  rw [onStep, hfire] at hrun
  cases hrun
  refine ⟨rfl, fun step hstep => ?_, calls, hcalls, rfl, haccounts.visits, fun hd hvisits => ?_⟩
  · rcases r' with e | ⟨⟩ <;> cases hstep
    exact haccounts.stateful.trans hstart
  · obtain ⟨honce, hbooking⟩ := haccounts.books (by rwa [hstart]) (by rwa [hstart])
    refine ⟨honce, ?_⟩
    rcases r' with e | ⟨⟩
    · exact .none
    · obtain ⟨new, hledger, hnew⟩ := hbooking.exists_added
      change (↑([q'.state].flatMap fun link => link.outcome.ledger) : Multiset Entry) ≤ _
      rw [List.flatMap_singleton, hledger]
      exact hnew.le

/-- The executions of the steps that follow a step account for their ledgers. -/
theorem followOn_accounts {bag : Bag} {count : Nat} {previous : RoundState} {p q : Pass (Watched σ)}
    {r : Except FeatureError (List RoundState)} (hprevious : previous.stateful = p.state.stateful)
    (hrun : Reveal.followOn children bag count previous p = (r, q)) :
    ∃ calls, q.source.calls = p.source.calls ++ calls ∧
      Accounts d (Stepped (r.toOption.getD [])) p q calls := by
  induction count generalizing previous p r with
  | zero =>
    cases hrun
    exact ⟨[], (List.append_nil _).symm, .of_nothing rfl rfl fun _ => .none⟩
  | succ count ih =>
    rw [Reveal.followOn, bind_run] at hrun
    rcases hstep : onStep { previous.nextStep with replay := .start } bag (fireAll children) p
      with ⟨e | step, p'⟩ <;> rw [hstep] at hrun <;>
      obtain ⟨hstate, hstateful, calls, hcalls, haccounts⟩ :=
        onStep_accounts hchildren hprevious hstep
    · cases hrun
      exact ⟨calls, hcalls, haccounts⟩
    · dsimp only at hrun
      split at hrun
      · cases hrun
        exact ⟨calls, hcalls, haccounts⟩
      · have hnext : step.stateful = p'.state.stateful := by
          rw [hstate]
          exact hstateful step rfl
        rw [bind_run] at hrun
        rcases hrest : Reveal.followOn children bag count step p' with ⟨e | rest, q'⟩ <;>
          rw [hrest] at hrun <;> cases hrun <;>
          obtain ⟨calls', hcalls', haccounts'⟩ := ih hnext hrest <;>
          refine ⟨calls ++ calls', by rw [hcalls', hcalls, List.append_assoc], ?_⟩
        · exact haccounts.trans haccounts' fun _ _ => .none
        · exact haccounts.trans haccounts' .append

/-- How executions account for what is left after a sequence of steps was begun: those of the first
step for the ledger of the state, and those of the steps after it for the ledgers of the chain. -/
def Sequence (s : RoundState) (calls : List Execution) (s' : RoundState) : Prop :=
  ∃ here ahead new, calls = here ++ ahead ∧
    s'.outcome.ledger = s.outcome.ledger ++ new ∧
    (↑new : Multiset Entry) = (here.map Execution.added).sum ∧
    (↑s'.chainEntries : Multiset Entry) ≤
      (here.map Execution.computed).sum + (ahead.map Execution.added).sum

omit hchildren in
/-- The first step begins without a chain. The steps after it become the chain, or are lost. -/
theorem Sequence.of_steps {s s' s'' : RoundState} {calls calls' : List Execution}
    {links : List RoundState} (hfirst : Booking d 0 (Act.begun s) calls s')
    (hlinks : Stepped links s' calls' s'')
    (hchain : s'' = s' ∨ s'' = s'.setChain links) : Sequence s (calls ++ calls') s'' := by
  obtain ⟨new, hledger, hnew⟩ := hfirst.exists_added
  refine ⟨calls, calls', new, rfl, ?_, hnew, ?_⟩
  · rcases hchain with rfl | rfl <;> exact hledger
  · rcases hchain with rfl | rfl
    · exact (hfirst.chainEntries_le rfl).trans le_self_add
    · have hentries : (s'.setChain links).chainEntries =
          links.flatMap fun link => link.outcome.ledger := List.flatMap_map ..
      rw [hentries]
      exact hlinks.trans le_add_self

/-- The executions of a sequence account for what it leaves, whatever becomes of the steps after the
first one. -/
theorem sequence_accounts {bag : Bag} {count : Nat} {p p₁ p₂ q : Pass (Watched σ)}
    {r : Except FeatureError Unit} {r' : Except FeatureError (List RoundState)}
    (hfirst : fireAll children { p with state := Act.begun p.state } = (r, p₁))
    (hlinks : Reveal.followOn children bag count p₁.state p₁ = (r', p₂))
    (hcalls : q.source.calls = p₂.source.calls) (hvisits : q.visits = p₂.visits)
    (hstate : q.state = p₁.state ∨ q.state = p₁.state.setChain (r'.toOption.getD [])) :
    ∃ calls, q.source.calls = p.source.calls ++ calls ∧ Accounts d Sequence p q calls := by
  obtain ⟨calls, hcalls₁, hthere⟩ := fireAll_books hchildren _ _ _ hfirst
  obtain ⟨calls', hcalls₂, hthen⟩ := followOn_accounts hchildren rfl hlinks
  refine ⟨calls ++ calls', by rw [hcalls, hcalls₂, hcalls₁, List.append_assoc], ?_⟩
  have hfrom : Accounts d (fun s => Booking d 0 (Act.begun s)) p p₁ calls :=
    ⟨hthere.stateful, hthere.visits, hthere.books⟩
  have hrest : Accounts d (Stepped (r'.toOption.getD [])) p₁ q calls' := by
    refine ⟨?_, hvisits.trans hthen.visits, hthen.books⟩
    rcases hstate with hstate | hstate <;> rw [hstate]
    rfl
  exact hfrom.trans hrest fun h h' => .of_steps h h' hstate

/-- How executions account for what a feature leaves, by whether it began a sequence of steps. -/
def Settled (d : Definition) : Bool → RoundState → List Execution → RoundState → Prop
  | true => Sequence
  | false => Booking d 1

/-- A feature that computes steps notes nothing. -/
theorem play_accounts (htag : d.tag = "Play") {p q : Pass (Watched σ)}
    {r : Except FeatureError Unit} (hrun : Reveal.play children p = (r, q)) :
    ∃ calls, q.source.calls = p.source.calls ++ calls ∧
      Accounts d (Settled d (d.begins p.state p.bag)) p q calls := by
  have hbegins {count : Nat} (hpending : pending p.state = none)
      (hcount : p.bag.findD .nat "Steps" 1 = .ok count) : d.begins p.state p.bag = true := by
    rw [Definition.begins, htag, hpending, hcount]
    rfl
  cases Reveal.play_run hrun with
  | idle h =>
    have hidle : d.begins p.state p.bag = false := by
      rcases h with hpending | ⟨e, he⟩
      · rw [Definition.begins, ← Option.not_isSome, hpending]
        simp
      · rw [Definition.begins, he]
        exact Bool.and_false _
    rw [hidle]
    exact ⟨[], (List.append_nil _).symm, .of_nothing rfl rfl fun _ => .of_same rfl (.inl rfl)⟩
  | first hpending hcount hfirst =>
    rw [hbegins hpending hcount]
    have hnone : Reveal.followOn children p.bag 0 q.state q = (.ok [], q) := rfl
    exact sequence_accounts hchildren hfirst hnone rfl rfl (.inl rfl)
  | failed hpending hcount hfirst hlinks =>
    rw [hbegins hpending hcount]
    exact sequence_accounts hchildren hfirst hlinks rfl rfl (.inl (Reveal.followOn_state hlinks))
  | chained hpending hcount hfirst _ hlinks =>
    rw [hbegins hpending hcount]
    exact sequence_accounts hchildren hfirst hlinks rfl rfl (.inr rfl)

end Steps

/-! ### Trees -/

/-- For the one that called for it, an execution accounts for all entries. -/
theorem Booking.of_execution (d : Definition) {x : Execution} {new : List Entry}
    (hledger : x.after.outcome.ledger = x.before.outcome.ledger ++ new)
    (hchain : x.begun = false → x.after.chain = x.before.chain ∨ x.after.chain = []) :
    Booking d 0 x.before [x] x.after where
  entries := by
    refine ⟨[], new, le_refl 0, (fun _ hy => nomatch hy), hledger, ?_⟩
    rw [← Execution.added_eq hledger, List.map_singleton, List.sum_singleton]
    exact (zero_add _).symm
  computed h := by
    have hbegun : x.begun = true := by rwa [List.any_cons, List.any_nil, Bool.or_false] at h
    rw [List.map_singleton, List.sum_singleton, Execution.computed, if_pos hbegun]
  chain h := hchain (by rwa [List.any_cons, List.any_nil, Bool.or_false] at h)

/-- An execution that began no sequence has an entry of its own only if its node was set to work. -/
theorem Booking.recordsOnce {n : Nat} {x : Execution} (hn : n ≤ 1)
    (hwork : n = 0 ∨ ∃ v ∈ x.visit, v.node = x.node) (hbegins : x.begins = false)
    (h : Booking x.node n x.before x.calls x.after) :
    x.RecordsOnce ∧ ∀ d, Booking d 0 x.before [x] x.after := by
  obtain ⟨own, new, hlength, hown, hledger, hnew⟩ := h.entries
  have hbegun : x.begun = x.calls.any Execution.begun := by
    rw [Execution.begun_eq, hbegins, Bool.false_or]
  refine ⟨.notes (hlength.trans hn) (fun y hy => ?_) ((Execution.added_eq hledger).trans hnew) ?_,
    fun d => .of_execution d hledger fun hnone => h.chain (hbegun ▸ hnone)⟩
  · rcases hwork with rfl | ⟨v, hv, hnode⟩
    · rw [List.eq_nil_of_length_eq_zero (Nat.le_zero.mp hlength)] at hy
      cases hy
    · exact ⟨v, hv, hnode ▸ hown y hy⟩
  · rw [Execution.computed]
    split
    · next hsome => exact h.computed (hbegun ▸ hsome)
    · exact Multiset.zero_le _

theorem Sequence.recordsOnce {x : Execution} (hbegins : x.begins = true)
    (h : Sequence x.before x.calls x.after) :
    x.RecordsOnce ∧ ∀ d, Booking d 0 x.before [x] x.after := by
  obtain ⟨here, ahead, new, hcalls, hledger, hnew, hle⟩ := h
  have hbegun : x.begun = true := by rw [Execution.begun_eq, hbegins, Bool.true_or]
  refine ⟨.begins hbegins hcalls ((Execution.added_eq hledger).trans hnew) ?_,
    fun d => .of_execution d hledger fun hnone => ?_⟩
  · rwa [Execution.computed, if_pos hbegun]
  · rw [hbegun] at hnone
    cases hnone

/-- A node accounts for all entries if what its feature leaves is settled. -/
theorem recorded_books {d₀ : Definition} {above : List Definition}
    {work : Effect → PassM (Watched σ) Unit}
    (hwork : ∀ e, Registry.builtin.create d.tag = .ok e → ∀ p r q, work e p = (r, q) →
      ∃ calls, q.source.calls = p.source.calls ++ calls ∧
        Accounts d (Settled d (d.begins p.state p.bag)) p q calls) :
    Books d₀ 0 (d.recorded .builtin above (d.enter .builtin above work)) := by
  intro p r q hrun
  obtain ⟨q', x, hx, rfl⟩ := Definition.recorded_enter hrun
  refine ⟨[x], rfl, ?_⟩
  cases hx with
  | @refused error hrefused =>
    let x : Execution :=
      ⟨d, none, p.state, [], some (.inFeature d.tag d.id (.config error)), p.state⟩
    have hbooking : Booking x.node 0 x.before x.calls x.after := .of_same rfl (.inl rfl)
    obtain ⟨honce, habove⟩ := hbooking.recordsOnce (Nat.zero_le 1) (.inl rfl) rfl
    exact ⟨rfl, rfl, fun _ _ => ⟨List.forall_mem_singleton.mpr honce, habove d₀⟩⟩
  | @worked e r q' bag hcreate hfeature =>
    obtain ⟨calls, hcalls, haccounts⟩ := hwork e hcreate _ _ _ hfeature
    obtain rfl : q'.source.calls = calls := hcalls
    let v : Visit := ⟨above, d, d.params.overlay p.bag⟩
    let x : Execution := ⟨d, some v, p.state, q'.source.calls,
      errorOf (r.mapError (·.leaving d.tag d.id)), q'.state⟩
    have hvisits : visitsOf [x] = v :: visitsOf x.calls := Execution.visitsOf_singleton x
    refine ⟨haccounts.stateful, ?_, fun _ hreveals => ?_⟩
    · rw [hvisits, List.reverse_cons, List.append_assoc]
      exact haccounts.visits
    · rw [hvisits] at hreveals
      obtain ⟨hself, hbelow⟩ := List.forall_mem_cons.mp hreveals
      obtain ⟨honce, hsettled⟩ := haccounts.books hself hbelow
      have hx : x.RecordsOnce ∧ ∀ d, Booking d 0 x.before [x] x.after := by
        change Settled d x.begins x.before x.calls x.after at hsettled
        rcases hbegins : x.begins with _ | _ <;> rw [hbegins] at hsettled
        · exact Booking.recordsOnce (le_refl 1) (.inr ⟨v, rfl, rfl⟩) hbegins hsettled
        · exact Sequence.recordsOnce hbegins hsettled
      refine ⟨?_, hx.2 d₀⟩
      rw [List.flatMap_singleton, Execution.all_eq]
      exact List.forall_mem_cons.mpr ⟨hx.1, honce⟩

variable [RandomSource σ]

/-- Every execution of a tree has at most one entry of its own. -/
theorem Definition.watch_books (d d₀ : Definition) (above : List Definition) :
    Books d₀ 0 (d.watch .builtin above : PassM (Watched σ) Unit) := by
  induction d using Definition.induction generalizing d₀ above with
  | node d ih =>
    rw [watch_eq]
    refine recorded_books fun e hcreate p r q hrun => ?_
    have hchildren : ∀ child ∈ d.features.map fun c => ⟨c, c.watch .builtin (above ++ [d])⟩,
        Books d 0 (Child.trigger child : PassM (Watched σ) Unit) := by
      intro child hchild
      obtain ⟨c, hc, rfl⟩ := List.mem_map.mp hchild
      exact ih c hc d _
    have htag : d.tag = e.tag := (Registry.tag_of_create_builtin hcreate).symm
    by_cases he : e = .play
    · subst he
      exact play_accounts hchildren htag hrun
    · have hother : d.tag ≠ "Play" := fun hplay =>
        he (Registry.eq_of_create_builtin hcreate hplay)
      have hidle : d.begins p.state p.bag = false := by
        rw [Definition.begins, beq_eq_false_iff_ne.mpr hother]
        rfl
      rw [hidle]
      exact run_books hchildren htag he _ _ _ hrun

/-- The visits of a tree at work are those of its nodes. -/
def visitsIn (nodes : List Definition) : Kept where
  Rel v _ v' _ := ∀ w ∈ v', w ∈ v ∨ w.node ∈ nodes
  refl _ _ _ hw := .inl hw
  trans h h' w hw := by
    rcases h' w hw with hw | hnode
    · exact h w hw
    · exact .inr hnode

theorem visitsIn_trigger {d : Definition} {source : σ} {s : RoundState} {bag : Bag}
    {r : Except FeatureError Unit} {p : Pass σ} (hrun : trigger .builtin d source s bag = (r, p)) :
    ∀ v ∈ p.visits, v.node ∈ d.nodes := by
  have hkeeps : (visitsIn d.nodes).Keeps (d.trigger .builtin [] : PassM σ Unit) := by
    refine Kept.trigger_keeps _ d (fun n hn above bag v _ w hw => ?_)
      (fun _ _ _ _ _ _ _ _ s _ _ _ _ _ _ _ v => (visitsIn d.nodes).refl v s)
      (fun _ _ _ _ _ _ _ h _ => h) []
    rcases List.mem_cons.mp hw with rfl | hw
    · exact .inr hn
    · exact .inl hw
  intro v hv
  rcases hkeeps _ _ _ hrun v hv with hv | hnode
  · cases hv
  · exact hnode

/-! ### Owners -/

/-- Entries can be handed to visits, each to one of its own node, and no two to the same. -/
def Owned (entries : Multiset Entry) (visits : Multiset Visit) : Prop :=
  ∃ owners ≤ visits, Multiset.Rel (fun y v => y.IsOf v.node) entries owners

namespace Owned

variable {entries entries' : Multiset Entry} {visits visits' : Multiset Visit}

theorem none (visits : Multiset Visit) : Owned 0 visits :=
  ⟨0, Multiset.zero_le visits, .zero⟩

theorem of_le (h : Owned entries visits) (hle : entries' ≤ entries) : Owned entries' visits := by
  obtain ⟨owners, howners, hrel⟩ := h
  obtain ⟨others, rfl⟩ := Multiset.le_iff_exists_add.mp hle
  obtain ⟨owners', owners'', hrel', -, rfl⟩ := Multiset.rel_add_left.mp hrel
  exact ⟨owners', le_self_add.trans howners, hrel'⟩

theorem add (h : Owned entries visits) (h' : Owned entries' visits') :
    Owned (entries + entries') (visits + visits') := by
  obtain ⟨owners, howners, hrel⟩ := h
  obtain ⟨owners', howners', hrel'⟩ := h'
  exact ⟨owners + owners', add_le_add howners howners', hrel.add hrel'⟩

/-- There are no more entries than visits. -/
theorem card_le (h : Owned entries visits) : entries.card ≤ visits.card := by
  obtain ⟨owners, howners, hrel⟩ := h
  rw [Multiset.card_eq_card_of_rel hrel]
  exact Multiset.card_le_card howners

/-- The entries of several executions belong to the visits of all of them. -/
theorem sum {f : Execution → Multiset Entry} {calls : List Execution}
    (h : ∀ c ∈ calls, Owned (f c) ↑(visitsOf [c])) :
    Owned (calls.map f).sum ↑(visitsOf calls) := by
  induction calls with
  | nil => exact .none _
  | cons c rest ih =>
    obtain ⟨hfirst, hrest⟩ := List.forall_mem_cons.mp h
    rw [List.map_cons, List.sum_cons, ← List.singleton_append, visitsOf_append, ← Multiset.coe_add]
    exact hfirst.add (ih hrest)

theorem exists_visit (h : Owned entries visits) {y : Entry} (hy : y ∈ entries) :
    ∃ v ∈ visits, y.IsOf v.node := by
  obtain ⟨owners, howners, hrel⟩ := h
  obtain ⟨v, hv, hyv⟩ := Multiset.exists_mem_of_rel_of_mem hrel hy
  exact ⟨v, Multiset.mem_of_le howners hv, hyv⟩

end Owned

namespace Execution

/-- The entries that an execution leaves: those that were added to the ledger, and those of the
chain if it was computed meanwhile. -/
def entries (x : Execution) : Multiset Entry := x.added + x.computed

theorem entries_le_of_recordsOnce {x : Execution} (h : x.RecordsOnce) : ∃ own : List Entry,
    own.length ≤ 1 ∧ (∀ y ∈ own, ∃ v ∈ x.visit, y.IsOf v.node) ∧
      x.entries ≤ ↑own + (x.calls.map entries).sum := by
  have hsum (calls : List Execution) :
      (calls.map entries).sum = (calls.map added).sum + (calls.map computed).sum :=
    List.sum_map_add
  cases h with
  | @notes own hlength hown hadded hcomputed =>
    refine ⟨own, hlength, hown, ?_⟩
    rw [entries, hadded, hsum, add_assoc]
    exact add_le_add_right (add_le_add_right hcomputed _) _
  | @begins here ahead _ hcalls hadded hcomputed =>
    refine ⟨[], Nat.zero_le 1, (fun _ hy => nomatch hy), ?_⟩
    calc x.entries
        ≤ (here.map added).sum + ((here.map computed).sum + (ahead.map added).sum) := by
          rw [entries, hadded]
          exact add_le_add_right hcomputed _
      _ = (here.map entries).sum + (ahead.map added).sum := by rw [hsum, add_assoc]
      _ ≤ (here.map entries).sum + (ahead.map entries).sum := by
          rw [hsum ahead]
          exact add_le_add_right le_self_add _
      _ = (x.calls.map entries).sum := by rw [hcalls, List.map_append, List.sum_append]
      _ = ↑([] : List Entry) + (x.calls.map entries).sum := (zero_add _).symm

/-- The entries that an execution leaves belong to its visits if it and all below it have at most
one entry of their own. -/
theorem entries_owned {x : Execution} (h : ∀ y ∈ x.all, y.RecordsOnce) :
    Owned x.entries ↑(visitsOf [x]) := by
  induction x using Execution.induction with
  | execution x ih =>
    rw [all_eq] at h
    obtain ⟨honce, hcalls⟩ := List.forall_mem_cons.mp h
    obtain ⟨own, hlength, hown, hle⟩ := entries_le_of_recordsOnce honce
    have hself : Owned ↑own ↑x.visit.toList := by
      rcases own with _ | ⟨y, _ | ⟨_, _⟩⟩
      · exact .none _
      · obtain ⟨v, hv, hyv⟩ := hown y List.mem_cons_self
        rw [Option.mem_def.mp hv]
        exact ⟨{v}, le_refl _, Multiset.rel_cons_left.mpr ⟨v, 0, hyv, .zero, rfl⟩⟩
      · exact absurd hlength (by simp)
    have hbelow : Owned (x.calls.map entries).sum ↑(visitsOf x.calls) :=
      .sum fun c hc => ih c hc fun y hy => hcalls y (List.mem_flatMap_of_mem hc hy)
    rw [visitsOf_singleton, ← Multiset.coe_add]
    exact (hself.add hbelow).of_le hle

end Execution

/-- Every entry that a pass leaves has an owner. A pass in which no step is taken over, whether it
succeeds or fails, only adds to the ledger. Each execution in it has at most one entry of its own.
The new entries, together with those of the chain if the pass computed it, have the id and the tag
of nodes that were triggered, and can be handed to the visits of the pass, no two to the same. So
there are no more of them than features that were triggered. -/
theorem trigger_owned {σ : Type} [RandomSource σ] {d : Definition} {source : σ} {s : RoundState}
    {bag : Bag} {r : Except FeatureError Unit} {p : Pass σ}
    (hrun : trigger .builtin d source s bag = (r, p))
    (hreveals : ∀ v ∈ p.visits, ¬v.node.Reveals s.stateful) :
    ∃ root new, d.watch .builtin [] ((Pass.start source s bag).watched []) = (r, p.watched [root]) ∧
      root.node = d ∧ visitsOf [root] = p.visits.reverse ∧ (∀ x ∈ root.all, x.RecordsOnce) ∧
      p.state.outcome.ledger = s.outcome.ledger ++ new ∧
      (root.begun = false → p.state.chain = s.chain ∨ p.state.chain = []) ∧
      let left := new ++ if root.begun then p.state.chainEntries else []
      (∀ y ∈ left, ∃ v ∈ p.visits, v.node ∈ d.nodes ∧ y.IsOf v.node) ∧ Owned ↑left ↑p.visits ∧
        left.length ≤ p.triggered := by
  obtain ⟨root, hwatch, hnode, hbefore, -, hafter⟩ := Definition.trigger_watched hrun []
  -- The account is asked for by a definition that takes over nothing.
  let observer : Definition := ⟨0, "", .empty, []⟩
  obtain ⟨calls, hcalls, haccounts⟩ := d.watch_books observer [] _ _ _ hwatch
  obtain rfl : [root] = calls := hcalls
  have hvisits : p.visits = (visitsOf [root]).reverse :=
    haccounts.visits.trans (List.append_nil _)
  have hreversed : visitsOf [root] = p.visits.reverse := by rw [hvisits, List.reverse_reverse]
  have hobserver : ¬observer.Reveals s.stateful := fun h => absurd h.1 (by decide)
  obtain ⟨honce, hbooking⟩ := haccounts.books hobserver fun v hv =>
    hreveals v (List.mem_reverse.mp (hreversed ▸ hv))
  rw [List.flatMap_singleton] at honce
  obtain ⟨new, hledger, -⟩ := hbooking.exists_added
  have hledger : p.state.outcome.ledger = s.outcome.ledger ++ new := hledger
  have hentries : root.entries =
      ↑(new ++ if root.begun then p.state.chainEntries else []) := by
    have hadded : root.added = ↑new := by
      refine Execution.added_eq ?_
      rw [hafter, hbefore]
      exact hledger
    rw [Execution.entries, hadded, Execution.computed, hafter, Multiset.coe_add]
  have howned := Execution.entries_owned honce
  rw [hentries, hreversed, Multiset.coe_reverse] at howned
  refine ⟨root, new, hwatch, hnode, hreversed, honce, hledger, fun hbegun => ?_, fun y hy => ?_,
    howned, howned.card_le⟩
  · exact hbooking.chain (by rw [List.any_cons, hbegun]; rfl)
  · obtain ⟨v, hv, hyv⟩ := howned.exists_visit hy
    exact ⟨v, hv, visitsIn_trigger hrun v hv, hyv⟩

/-- Computes two steps, each of which awards free spins once or twice. -/
def awardsInSteps : Definition where
  id := 1
  tag := "Play"
  params := Bag.empty.insert "Steps" (.ofNat 2)
  features := [⟨2, "RepeatActivator", Bag.empty.insert "Counts" (.ofNats [1, 2]),
    [⟨3, "AwardFreespins", Bag.empty.insert "Spins" (.ofNat 5), []⟩]⟩]

/-- Five of six visits own the entries: the three in the ledger of the state, and the two of the
step that became its chain. Only the one that computes the steps owns none. -/
theorem trigger_owned_awardsInSteps : ∃ p root new,
    trigger .builtin awardsInSteps (Script.ofDraws [1, 0]) (.fresh 2 2) .empty = (.ok (), p) ∧
      awardsInSteps.watch .builtin []
        ((Pass.start (Script.ofDraws [1, 0]) (.fresh 2 2) .empty).watched []) =
          (.ok (), p.watched [root]) ∧
      (∀ x ∈ root.all, x.RecordsOnce) ∧ new.length = 3 ∧ p.state.chainEntries.length = 2 ∧
      p.triggered = 6 ∧ Owned ↑(new ++ p.state.chainEntries) ↑p.visits := by
  let source := Script.ofDraws [1, 0]
  rcases hrun : trigger .builtin awardsInSteps source (.fresh 2 2) .empty with ⟨r, p⟩
  have hr : (trigger .builtin awardsInSteps source (.fresh 2 2) .empty).1 = .ok () := by
    decide +kernel
  have hreveals : ∀ v ∈ (trigger .builtin awardsInSteps source (.fresh 2 2) .empty).2.visits,
      ¬v.node.Reveals (RoundState.fresh 2 2).stateful := by decide +kernel
  have hnew : (trigger .builtin awardsInSteps source (.fresh 2 2)
      .empty).2.state.outcome.ledger.length = 3 := by decide +kernel
  have hcomputed : (trigger .builtin awardsInSteps source (.fresh 2 2)
      .empty).2.state.chainEntries.length = 2 := by decide +kernel
  have htriggered :
      (trigger .builtin awardsInSteps source (.fresh 2 2) .empty).2.triggered = 6 := by
    decide +kernel
  rw [hrun] at hr hreveals hnew hcomputed htriggered
  obtain rfl : r = .ok () := hr
  obtain ⟨root, new, hwatch, -, -, honce, hledger, hchain, -, howned, -⟩ :=
    trigger_owned hrun hreveals
  have hbegun : root.begun = true := by
    by_contra hnot
    have hnil : p.state.chain = [] := by
      rcases hchain (eq_false_of_ne_true hnot) with h | h <;> exact h
    rw [RoundState.chainEntries_of_nil hnil] at hcomputed
    cases hcomputed
  rw [if_pos hbegun] at howned
  refine ⟨p, root, new, rfl, hwatch, honce, ?_, hcomputed, htriggered, howned⟩
  rw [hledger] at hnew
  exact hnew

end SlotOutcome
