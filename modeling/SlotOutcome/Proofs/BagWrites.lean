import SlotOutcome.Proofs.BagLaws
import SlotOutcome.Proofs.Results

/-!
# What features write into their bags

A feature that sets no parameters writes into its bag under a few keys that belong to its type:
where it found symbols, the strips that it chose, and what is to be remembered. The one exception is
a counter that reaches its target, which raises a flag under a key of the configuration. Everything
else in the bag stays as it is.

## Main definitions

* `Effect.writes`: the keys that features of a type write.
* `Key.context`: the keys that hold no settings.
* `Effect.Leaves`: what such a feature does to its bag.

## Main results

* `Atom.leaves`: no atom does more to the bag, except those that set parameters.
-/

namespace SlotOutcome

theorem Effect.mem_all (e : Effect) : e ∈ Effect.all := by cases e <;> decide

/-- The keys under which features of a type write into their bags. -/
def Effect.writes : Effect → List String
  | weightedReelset => ["Reels"]
  | countTrigger => [Key.positions, "TriggerCount"]
  | counter => [Key.statefulStash, Key.statelessStash]
  | stickySymbols => [Key.statefulStash, Key.statelessStash]
  | _ => []

/-- The keys of the context, which are not the setting of any type of feature. -/
def Key.context : List String :=
  [Key.position, Key.positions, "Reels", "TriggerCount", Key.collate, Key.statefulStash,
    Key.statelessStash]

theorem Effect.writes_subset_context (e : Effect) : e.writes ⊆ Key.context := by
  cases e <;> decide

theorem Effect.collate_not_mem_writes (e : Effect) : Key.collate ∉ e.writes := by
  cases e <;> decide

/-- A bag in which the key of a flag is to be raised by a counter that reaches its target. -/
def Bag.MayRaise (bag : Bag) (key : String) : Prop :=
  bag.find .text "ReachedFlag" = .ok (some key)

/-- What a feature of a type that sets no parameters does to its bag: the keys that the type does
not write keep their values, but for a flag that a counter raises. -/
def Effect.Leaves (e : Effect) (bag left : Bag) : Prop :=
  ∀ key ∉ e.writes, left.get? key = bag.get? key ∨
    e = .counter ∧ bag.MayRaise key ∧ left.get? key = some (.bool true)

namespace Effect.Leaves

variable {e : Effect} {bag left : Bag}

theorem refl (e : Effect) (bag : Bag) : e.Leaves bag bag := fun _ _ => .inl rfl

theorem insert (h : e.Leaves bag left) {key : String} (hkey : key ∈ e.writes) (value : Json) :
    e.Leaves bag (Members.insert left key value) := by
  intro key' hkey'
  have hne : key' ≠ key := by
    rintro rfl
    exact hkey' hkey
  rw [Members.get?_insert, if_neg hne]
  exact h key' hkey'

theorem stash (h : e.Leaves bag left)
    (hwrites : e.writes = [Key.statefulStash, Key.statelessStash]) (channel : Channel) (map : Bag) :
    e.Leaves bag (channel.stash left map) := by
  refine h.insert ?_ (.obj map)
  rw [hwrites]
  cases channel <;> decide

theorem raise (h : Effect.counter.Leaves bag left) {flag : String} (hflag : bag.MayRaise flag) :
    Effect.counter.Leaves bag (Members.insert left flag (.bool true)) := by
  intro key hkey
  by_cases heq : key = flag
  · subst heq
    refine .inr ⟨rfl, hflag, ?_⟩
    rw [Members.get?_insert, if_pos rfl]
  · rw [Members.get?_insert, if_neg heq]
    exact h key hkey

/-- Unless features of the type are counters, only the keys that they write may change. -/
theorem get?_eq (h : e.Leaves bag left) (he : e ≠ .counter) {key : String}
    (hkey : key ∉ e.writes) : left.get? key = bag.get? key :=
  (h key hkey).resolve_right fun hraised => he hraised.1

end Effect.Leaves

/-- A stash is not what names a flag. -/
theorem Channel.find_flag_stash (channel : Channel) (bag map : Bag) :
    Bag.find (channel.stash bag map) .text "ReachedFlag" = bag.find .text "ReachedFlag" := by
  have hne : "ReachedFlag" ≠ channel.stashKey := by cases channel <;> decide
  rw [Bag.find, Bag.find, stash, Members.get?_insert, if_neg hne]

section Plans

variable (s : RoundState) (bag : Bag)

theorem counter_leaves :
    Yields (fun result => Effect.counter.Leaves bag result.2) (Remember.counter s bag) := by
  have hstash (channel : Channel) (map : Bag) : Effect.counter.Leaves bag (channel.stash bag map) :=
    (Effect.Leaves.refl _ bag).stash rfl channel map
  refine .after fun channel => .after fun key => .after fun symbol => ?_
  rcases symbol with _ | symbol <;>
    refine .after fun increment => .after fun map => .after fun count => .after fun target => ?_ <;>
    refine .ite (.after fun reset => ?_) (.after fun reset => ?_) <;>
    refine .ite (.bind (.lift_param (yields_eq _)) fun flag hflag => ?_) (.bind
      (.pure (P := fun flag => flag = none) rfl) fun flag hflag => ?_) <;>
    refine .ite (.pure ?_) (.pure ?_) <;>
    first
      | (subst hflag; exact hstash channel _)
      | rcases flag with _ | flag
        · exact hstash channel _
        · exact (hstash channel _).raise ((channel.find_flag_stash bag _).symm.trans hflag)

theorem sticky_leaves :
    Yields (fun result => Effect.stickySymbols.Leaves bag result.2) (Remember.sticky s bag) := by
  have hstash (channel : Channel) (map : Bag) :
      Effect.stickySymbols.Leaves bag (channel.stash bag map) :=
    (Effect.Leaves.refl _ bag).stash rfl channel map
  refine .after fun id => .after fun channel => .after fun key => .after fun map => ?_
  refine .after fun applied => .after fun grid => ?_
  exact .ite (.pure (hstash channel _)) (.pure (hstash channel _))

variable {σ : Type}

theorem keepingBag_leaves (e : Effect) (plan : RoundState → Bag → PlanM σ (Option Change)) :
    Yields (fun result => e.Leaves bag result.2) (keepingBag plan s bag) :=
  .after fun _ => .pure (.refl e bag)

variable [RandomSource σ]

/-- Among the features that call no others, only one does more to the bag. -/
theorem leaf?_leaves {e : Effect} (he : e ≠ .setParams)
    {plan : RoundState → Bag → PlanM σ (Option Change × Bag)} (hplan : e.leaf? = some plan) :
    Yields (fun result => e.Leaves bag result.2) (plan s bag) := by
  cases e <;> simp only [Effect.leaf?, Option.some.injEq, reduceCtorEq] at hplan <;> subst hplan
  case setParams => exact absurd rfl he
  case counter => exact .lift_plan (counter_leaves s bag)
  case stickySymbols => exact .lift_plan (sticky_leaves s bag)
  all_goals exact keepingBag_leaves s bag _ _

/-- No atom does more to the bag, except those that set parameters. -/
theorem Atom.leaves {τ : Type} [RandomSource τ] {d : Definition} {e : Effect} {α : Type}
    {act : RoundState → Bag → PlanM σ (α × RoundState × Bag)}
    {act' : RoundState → Bag → PlanM τ (α × RoundState × Bag)} (hatom : Atom d e act act')
    (he : e ≠ .setParams) : Yields (fun result => e.Leaves bag result.2.2) (act s bag) := by
  have hsame : e.Leaves bag bag := .refl e bag
  cases hatom with
  | leaf hplan _ => exact .bind (leaf?_leaves s bag he hplan) fun _ hleft => .pure hleft
  | chance _ | pick _ _ => exact .after fun _ => .pure hsame
  | choice _ | begun | chained _ | ended => exact .pure hsame
  | counts =>
    refine .after fun counts => ?_
    rcases counts with _ | counts
    · exact .after fun _ => .pure hsame
    · exact .after fun _ => .after fun _ => .pure hsame
  | chooses =>
    refine .after fun sets => .after fun weights => .after fun index => .after fun name => ?_
    exact .after fun strips => .pure (hsame.insert (by decide) _)
  | counting =>
    refine .after fun sought => .after fun least => .ite (.pure hsame) (.pure ?_)
    exact (hsame.insert (by decide) _).insert (by decide) _
  | seeking => exact .after fun sought => .ite (.pure hsame) (.pure hsame)
  | reveals =>
    unfold Act.reveals
    rcases Reveal.pending s with _ | ⟨link, rest, tries⟩
    · exact .pure hsame
    · exact .pure hsame
  | decides => exact .after fun ceiling => .ite (.pure hsame) (.pure hsame)

end Plans

end SlotOutcome
