import SlotOutcome.Proofs.CheckedEffects
import SlotOutcome.Proofs.RecordedDraws

/-!
# Passes without faults

No step of a pass is out of range, whatever tree is triggered, and on whatever state and bag: no
list is read at an index past its end, nothing is divided by zero, and no difference is below zero.
A pass never asks its source for a draw from no possibilities. So a source that answers never fails
a pass; what a pass raises comes from the configuration, from the data, or from features that do not
fit together. The one fault that is left is a block of more positions than a list can hold.

## Main definitions

* `Follows`: a computation over a source that notes the ranges follows one over the source inside.
* `following`: following, as a relation between parts of passes.
* `roomy`: failing for lack of room only after a visit that asked for too much of it.

## Main results

* `Definition.trigger_follows`: a tree over a source that notes the ranges follows the tree.
* `Definition.trigger_roomy`: a tree lacks room only for a block that is too large.
* `trigger_faultless`: a pass has no faults, asks for no empty range, and is refused no draw.
-/

namespace SlotOutcome

/-! ### Following with a note of the ranges -/

section Follows

variable {s s' ε ε' α β : Type}

/-- The second computation does what the first one does, and notes the ranges that were asked for.
None of them is empty, and if they all fit 64 bits the first computation fails for no refused draw.
-/
def Follows (noted : s → List Nat → s') (refused : ε → Prop) (m : ExceptT ε (StateM s) α)
    (m' : ExceptT ε (StateM s') α) : Prop :=
  ∀ x r y, m x = (r, y) → ∀ asked, ∃ more,
    m' (noted x asked) = (r, noted y (asked ++ more)) ∧ (∀ n ∈ more, 0 < n) ∧
      ((∀ n ∈ more, n < UInt64.size) → ∀ e, r = .error e → ¬refused e)

variable {noted : s → List Nat → s'} {refused : ε → Prop} {m : ExceptT ε (StateM s) α}
  {m' : ExceptT ε (StateM s') α}

/-- A computation that asks for nothing. -/
theorem Follows.of_run
    (h : ∀ x r y, m x = (r, y) → ∀ asked, m' (noted x asked) = (r, noted y asked) ∧
      ∀ e, r = .error e → ¬refused e) : Follows noted refused m m' := by
  intro x r y hrun asked
  obtain ⟨hsame, herror⟩ := h x r y hrun asked
  exact ⟨[], by rw [List.append_nil, hsame], by simp, fun _ => herror⟩

theorem Follows.pure (a : α) : Follows noted refused (pure a) (pure a) := by
  refine .of_run fun x r y hrun asked => ?_
  cases hrun
  exact ⟨rfl, nofun⟩

theorem Follows.throw {e : ε} (he : ¬refused e) :
    Follows noted refused (throw e : ExceptT ε (StateM s) α) (throw e) := by
  refine .of_run fun x r y hrun asked => ?_
  cases hrun
  refine ⟨rfl, fun e' h => ?_⟩
  cases h
  exact he

/-- Parts that follow one after the other follow together. -/
theorem Follows.bind {f : α → ExceptT ε (StateM s) β} {f' : α → ExceptT ε (StateM s') β}
    (h : Follows noted refused m m') (hf : ∀ a, Follows noted refused (f a) (f' a)) :
    Follows noted refused (m >>= f) (m' >>= f') := by
  intro x r z hrun asked
  rw [bind_run] at hrun
  rcases hm : m x with ⟨e | a, y⟩
  · obtain ⟨more, hmore, hpos, hanswered⟩ := h x _ y hm asked
    rw [hm] at hrun
    cases hrun
    refine ⟨more, by rw [bind_run, hmore], hpos, fun hsize e' he => ?_⟩
    cases he
    exact hanswered hsize e rfl
  · obtain ⟨more, hmore, hpos, -⟩ := h x _ y hm asked
    rw [hm] at hrun
    obtain ⟨later, hlater, hpos', hanswered⟩ := hf a y r z hrun (asked ++ more)
    refine ⟨more ++ later, ?_, List.forall_mem_append.mpr ⟨hpos, hpos'⟩, fun hsize => ?_⟩
    · rw [bind_run, hmore, ← List.append_assoc]
      exact hlater
    · exact hanswered fun n hn => hsize n (List.mem_append_right _ hn)

/-- Errors may be changed on both sides. -/
theorem Follows.adapt {refused' : ε' → Prop} {f : ε → ε'} (h : Follows noted refused m m')
    (hf : ∀ e, refused' (f e) → refused e) :
    Follows noted refused' (ExceptT.adapt f m) (ExceptT.adapt f m') := by
  intro x r y hrun asked
  rw [adapt_run] at hrun
  cases hrun
  obtain ⟨more, hmore, hpos, hanswered⟩ := h x _ _ rfl asked
  refine ⟨more, by rw [adapt_run, hmore], hpos, fun hsize e he => ?_⟩
  rcases hm : (m x).1 with e' | a <;> rw [hm] at he
  · cases he
    exact fun hrefused => hanswered hsize e' hm (hf e' hrefused)
  · cases he

end Follows

/-! ### Plans -/

variable {σ : Type} [RandomSource σ]

/-- The source with a note of the ranges that were asked for, and nothing gone wrong. -/
def Checked.noted (source : σ) (asked : List Nat) : Checked σ := ⟨source, asked, none⟩

theorem Checked.draw_noted (n : Nat) (x : σ) (asked : List Nat) :
    (draw n : DrawM (Checked σ) Nat) (noted x asked) =
      (((draw n : DrawM σ Nat) x).1, noted ((draw n : DrawM σ Nat) x).2 (asked ++ [n])) := rfl

/-- A draw from a range that is not empty is answered, if the range fits 64 bits. -/
theorem draw_follows (hσ : Answers σ) {n : Nat} (hn : 0 < n) (refused : DrawError → Prop) :
    Follows Checked.noted refused (draw n : DrawM σ Nat) (draw n) := by
  intro x r y hrun asked
  refine ⟨[n], by rw [Checked.draw_noted, hrun], by simpa using hn, fun hsize e he => ?_⟩
  obtain ⟨value, next, hdraw, -⟩ := hσ n hn (hsize n (List.mem_singleton_self n)) x
  rw [hdraw] at hrun
  cases hrun
  cases he

/-- And the answer is in range. -/
theorem drawBelow_follows (hσ : Answers σ) {n : Nat} (hn : 0 < n) (refused : DrawError → Prop) :
    Follows Checked.noted refused (drawBelow n : DrawM σ (Fin n)) (drawBelow n) := by
  intro x r y hrun asked
  refine ⟨[n], ?_, by simpa using hn, fun hsize e he => ?_⟩
  · rw [drawBelow, bind_run] at hrun ⊢
    rw [Checked.draw_noted]
    rcases hdraw : (draw n : DrawM σ Nat) x with ⟨e | value, next⟩ <;> rw [hdraw] at hrun
    · cases hrun
      rfl
    · dsimp only at hrun ⊢
      split at hrun
      · next hvalue =>
        cases hrun
        rw [dif_pos hvalue]
        rfl
      · next hvalue =>
        cases hrun
        rw [dif_neg hvalue]
        rfl
  · obtain ⟨value, next, hdraw, hvalue⟩ := hσ n hn (hsize n (List.mem_singleton_self n)) x
    rw [drawBelow_of_draw hdraw hvalue] at hrun
    cases hrun
    cases he

/-- A choice by weights fails with this error for a refused draw, and not for its weights. -/
def DrawError.Refuses (e : DrawError) : Prop := (weightError e).IsRandom

/-- A choice by weights draws from the sum of the weights, which is not zero by then. Weights that
allow no choice are an error of the configuration. -/
theorem chooseIndex_follows (hσ : Answers σ) (weights : List Nat) :
    Follows Checked.noted FeatureError.IsRandom (chooseIndex weights : PlanM σ (Fin weights.length))
      (chooseIndex weights) := by
  have hzeroWeight : ¬DrawError.zeroWeight.Refuses := nofun
  have hoverflow : ¬DrawError.weightOverflow.Refuses := nofun
  suffices h : Follows Checked.noted DrawError.Refuses (weightedIndex weights)
      (weightedIndex weights) from h.adapt fun _ h => h
  rw [weightedIndex_eq, weightedIndex_eq]
  split
  · exact .throw hoverflow
  by_cases hzero : weightSum weights = 0
  · rw [if_pos hzero, if_pos hzero]
    exact .throw hzeroWeight
  rw [if_neg hzero, if_neg hzero]
  refine .bind (draw_follows hσ (Nat.pos_of_ne_zero hzero) _) fun value => ?_
  rcases indexAt weights value with _ | index
  · exact .throw hzeroWeight
  · exact .pure index

/-- Plans follow with a note of the ranges. -/
def plansFollowing (hσ : Answers σ) : PlanLockstep σ (Checked σ) where
  Rel := Follows Checked.noted FeatureError.IsRandom
  pure := .pure
  throw he := .throw he.kind_ne
  bind := .bind
  below hn := (drawBelow_follows hσ hn fun _ => True).adapt fun _ _ => trivial
  choose := chooseIndex_follows hσ

/-! ### Passes -/

/-- The pass with a note of the ranges that were asked for, and nothing gone wrong. -/
def Pass.noted (p : Pass σ) (asked : List Nat) : Pass (Checked σ) :=
  p.withSource (Checked.noted p.source asked)

omit [RandomSource σ] in
/-- An atom of a pass follows if its plans do. -/
theorem atomic_follows {α : Type} {act : RoundState → Bag → PlanM σ (α × RoundState × Bag)}
    {act' : RoundState → Bag → PlanM (Checked σ) (α × RoundState × Bag)}
    (h : ∀ s bag, Follows Checked.noted FeatureError.IsRandom (act s bag) (act' s bag)) :
    Follows Pass.noted FeatureError.IsRandom (atomic act) (atomic act') := by
  intro p r q hrun asked
  rcases hact : act p.state p.bag p.source with ⟨r', source⟩
  obtain ⟨more, hmore, hpos, hanswered⟩ := h _ _ _ _ _ hact asked
  rw [atomic, hact] at hrun
  refine ⟨more, ?_, hpos, fun hsize => ?_⟩
  · have hagain : act' (p.noted asked).state (p.noted asked).bag (p.noted asked).source =
        (r', Checked.noted source (asked ++ more)) := hmore
    rw [atomic, hagain]
    rcases r' with e | a <;> cases hrun <;> rfl
  · rintro e rfl
    rcases r' with e' | a
    · cases hrun
      exact hanswered hsize _ rfl
    · cases hrun

omit [RandomSource σ] in
/-- A part with a state and a bag of its own follows. -/
theorem aside_follows {α : Type} (into : RoundState × Bag → RoundState × Bag)
    (leave : RoundState × Bag → RoundState × Bag → α × RoundState × Bag) {m : PassM σ Unit}
    {m' : PassM (Checked σ) Unit} (h : Follows Pass.noted FeatureError.IsRandom m m') :
    Follows Pass.noted FeatureError.IsRandom (aside into leave m) (aside into leave m') := by
  intro p r q hrun asked
  rcases hm : m ⟨p.source, p.visits, (into (p.state, p.bag)).1, (into (p.state, p.bag)).2⟩
    with ⟨r', q'⟩
  obtain ⟨more, hmore, hpos, hanswered⟩ := h _ _ _ hm asked
  rw [aside, hm] at hrun
  cases hrun
  refine ⟨more, ?_, hpos, fun hsize e he => ?_⟩
  · have hagain : m' ⟨Checked.noted p.source asked, p.visits, (into (p.state, p.bag)).1,
        (into (p.state, p.bag)).2⟩ = (r', q'.noted (asked ++ more)) := hmore
    simp only [aside, Pass.noted, Pass.withSource, hagain]
  · rcases r' with e' | a
    · cases he
      exact hanswered hsize _ rfl
    · cases he

/-- Following with a note of the ranges, as a relation between parts of passes. -/
def following (σ : Type) : Lockstep σ (Checked σ) where
  Rel := Follows Pass.noted FeatureError.IsRandom
  pure := .pure
  throw he := .throw he.isOwn.kind_ne
  bind := .bind
  view h p r q hrun asked := h p (p.noted asked) rfl rfl p r q hrun asked

namespace Definition

/-- A tree over a source that notes the ranges follows the tree. -/
theorem trigger_follows (hσ : Answers σ) (registry : Registry) (d : Definition)
    (above : List Definition) :
    (following σ).Rel (d.trigger registry above) (d.trigger registry above) := by
  have hbag (bag : Bag) {m : PassM σ Unit} {m' : PassM (Checked σ) Unit}
      (h : (following σ).Rel m m') : (following σ).Rel (withBag bag m) (withBag bag m') :=
    aside_follows (fun before => (before.1, bag)) (fun before left => (left.2, left.1, before.2)) h
  refine (following σ).trigger (fun _ => True)
    (fun above d _ children _ h => (?_ : (following σ).Rel _
      (d.enter registry above fun e => e.run d children)))
    (Definition.trigger_eq registry) d above fun _ _ => trivial
  have hmodify {f : Pass σ → Pass σ} {f' : Pass (Checked σ) → Pass (Checked σ)}
      (hf : ∀ p asked, f' (p.noted asked) = (f p).noted asked) :
      (following σ).Rel (modify f) (modify f') := by
    refine .of_run fun p r q hrun asked => ?_
    cases hrun
    exact ⟨congrArg (Except.ok (), ·) (hf p asked), nofun⟩
  refine (following σ).enter (fun e => .throw nofun) (fun v => ?_) (fun f => ?_) hbag
    (fun h => h.adapt fun e he => (e.kind_leaving d.tag d.id).symm.trans he) fun e _ => ?_
  · exact hmodify fun _ _ => rfl
  · exact hmodify fun _ _ => rfl
  · refine (following σ).run h (fun hatom => ?_) (fun _ => hbag) fun _ previous bag _ _ h => ?_
    · exact atomic_follows fun s bag => (plansFollowing hσ).atom hatom s bag
    · exact aside_follows (fun _ => (_, bag)) (fun before left => (left.1, before)) h

end Definition

/-! ### Lack of room -/

/-- A feature that was asked for a block of more positions than a list can hold. -/
def Visit.LacksRoom (registry : Registry) (v : Visit) : Prop :=
  registry.create v.node.tag = .ok .tileExpansion ∧ v.bag.LacksRoom

omit [RandomSource σ] in
/-- A part of a pass fails for lack of room only after a visit that asked for too much of it, as a
relation of a part with any other. -/
def roomy (σ : Type) (registry : Registry) : Lockstep σ σ where
  Rel m _ := ∀ p e q, m p = (.error e, q) → e.kind = .capacity →
    ∃ v ∈ q.visits, v.LacksRoom registry
  pure _ p e q hrun := by cases hrun
  throw he p e q hrun hkind := by
    cases hrun
    exact absurd hkind he.kind_ne
  bind {α β m m' f f'} h hf p e q hrun hkind := by
    rw [bind_run] at hrun
    rcases hm : m p with ⟨e' | a, p'⟩ <;> rw [hm] at hrun
    · cases hrun
      exact h p _ _ hm hkind
    · exact hf a p' e q hrun hkind
  view h p e q hrun := h p p rfl rfl p e q hrun

omit [RandomSource σ] in
/-- A part with a state and a bag of its own leaves the visits as they are in the end. -/
theorem aside_roomy {registry : Registry} {α : Type}
    (into : RoundState × Bag → RoundState × Bag)
    (leave : RoundState × Bag → RoundState × Bag → α × RoundState × Bag) {m m' : PassM σ Unit}
    (h : (roomy σ registry).Rel m m') :
    (roomy σ registry).Rel (aside into leave m) (aside into leave m') := by
  intro p e q hrun hkind
  rcases hm : m ⟨p.source, p.visits, (into (p.state, p.bag)).1, (into (p.state, p.bag)).2⟩
    with ⟨e' | a, q'⟩ <;> rw [aside, hm] at hrun <;> cases hrun
  obtain ⟨v, hv, hroom⟩ := h _ e q' hm hkind
  exact ⟨v, hv, hroom⟩

/-- Only the feature that paints a block can lack room, and what it asks for is in its bag. -/
theorem Atom.lacksRoom {d : Definition} {k : Effect} {α : Type}
    {act act' : RoundState → Bag → PlanM σ (α × RoundState × Bag)} (hatom : Atom d k act act')
    {p q : Pass σ} {e : FeatureError} (hrun : atomic act p = (.error e, q))
    (hkind : e.kind = .capacity) : k = .tileExpansion ∧ p.bag.LacksRoom := by
  rw [atomic] at hrun
  rcases hact : act p.state p.bag p.source with ⟨e' | a, source⟩ <;> rw [hact] at hrun <;>
    cases hrun
  exact (hatom.raises p.state p.bag e ⟨_, _, hact⟩).2 hkind

namespace Definition

/-- A node that paints a block has noted its bag before it fails. -/
theorem enter_tile_roomy {registry : Registry} {above : List Definition} {d : Definition}
    (hcreate : registry.create d.tag = .ok .tileExpansion) (children : List (Child σ))
    {m : PassM σ Unit} :
    (roomy σ registry).Rel (d.enter registry above fun e => e.run d children) m := by
  intro p e q hrun hkind
  rcases hcollate : p.bag.isCollate with error | collate
  · rw [enter_run_unread hcreate hcollate] at hrun
    cases hrun
    cases hkind
  rcases hwork : Effect.tileExpansion.run d children (d.entered above p) with ⟨r, q'⟩
  rw [enter_run hcreate hcollate hwork] at hrun
  rcases r with e' | a <;> cases hrun
  rw [FeatureError.kind_leaving] at hkind
  rw [Effect.run_leaf rfl] at hwork
  obtain ⟨-, hroom⟩ := (Atom.leaf rfl rfl).lacksRoom (k := .tileExpansion) hwork hkind
  obtain ⟨source, rfl⟩ := atomic_run_error hwork
  exact ⟨_, List.mem_cons_self, hcreate, hroom⟩

/-- A tree fails for lack of room only after a visit that asked for too much of it. -/
theorem trigger_roomy (registry : Registry) (d : Definition) (above : List Definition) :
    (roomy σ registry).Rel (d.trigger registry above) (d.trigger registry above) := by
  let L := roomy σ registry
  have hbag (bag : Bag) {m m' : PassM σ Unit} (h : L.Rel m m') :
      L.Rel (withBag bag m) (withBag bag m') :=
    aside_roomy (fun before => (before.1, bag)) (fun before left => (left.2, left.1, before.2)) h
  refine L.trigger (fun _ => True)
    (fun above d _ children _ h =>
      (?_ : L.Rel _ (d.enter registry above fun e => e.run d children)))
    (Definition.trigger_eq registry) d above fun _ _ => trivial
  by_cases htile : registry.create d.tag = .ok .tileExpansion
  · exact enter_tile_roomy htile _
  refine L.enter (fun error p e q hrun hkind => ?_) (fun _ => nofun) (fun _ => nofun) hbag
    (fun {m m'} h p e q hrun hkind => ?_) fun effect hcreate => ?_
  · cases hrun
    cases hkind
  · change ((m p).1.mapError _, (m p).2) = _ at hrun
    rcases hm : m p with ⟨e' | a, q'⟩ <;> rw [hm] at hrun <;> cases hrun
    exact h p e' q' hm ((e'.kind_leaving d.tag d.id).symm.trans hkind)
  · refine L.run h (fun hatom p e q hrun hkind => ?_) (fun _ => hbag) fun _ previous bag _ _ h => ?_
    · obtain ⟨rfl, -⟩ := hatom.lacksRoom hrun hkind
      exact absurd hcreate htile
    · exact aside_roomy (fun _ => (_, bag)) (fun before left => (left.1, before)) h

end Definition

/-- No step of a pass is out of range, no draw is asked from an empty range, and no draw is refused.
With all its steps checked, and over a source that notes the ranges that it is asked for, a tree
does what it does over the source inside, without a fault; none of the ranges is empty; and if all
of them fit 64 bits, the pass fails with no random error. Only a block of more positions than a list
can hold makes a pass fail for lack of room. -/
theorem trigger_faultless (hσ : Answers σ) (registry : Registry) (d : Definition) (source : σ)
    (state : RoundState) (bag : Bag) :
    ∃ asked : List Nat,
      d.check registry [] (Pass.start (Checked.start source) state bag) =
          ((trigger registry d source state bag).1,
            (trigger registry d source state bag).2.noted asked) ∧
        (∀ n ∈ asked, 0 < n) ∧
        ((∀ n ∈ asked, n < UInt64.size) →
          ∀ e, (trigger registry d source state bag).1 = .error e → e.kind ≠ .random) ∧
        ∀ e, (trigger registry d source state bag).1 = .error e → e.kind = .capacity →
          ∃ v ∈ (trigger registry d source state bag).2.visits, v.LacksRoom registry := by
  obtain ⟨asked, hrun, hpos, hanswered⟩ :=
    d.trigger_follows hσ registry [] (Pass.start source state bag) _ _ rfl []
  refine ⟨asked, by rwa [Definition.check_eq], hpos, hanswered, fun e he hkind => ?_⟩
  exact d.trigger_roomy registry [] (Pass.start source state bag) e _ (Prod.ext he rfl) hkind

/-- Spins two reels of one row, drops two wilds, and then wants to draw the number of further wilds
from no numbers at all. -/
def wildsFromNothing : Definition where
  id := 4
  tag := "Activator"
  params := .empty
  features :=
    [twoReels, wilds 5 (Bag.empty.insert "WildCount" (.ofNat 2)),
      wilds 6 (Bag.empty.insert "WildCounts" (.arr []))]
where
  wilds (id : UInt32) (count : Bag) : Definition :=
    ⟨id, "RandomWilds", count.insert "RandomWildId" (.ofNat 9), []⟩

/-- Two stops, two cells out of two, and then nothing more is asked for: the pass fails, with an
error that is not random. -/
theorem trigger_faultless_wildsFromNothing :
    ∃ e p, wildsFromNothing.check .builtin []
        (Pass.start (Checked.start (Seeded.ofSeed 2)) (.fresh 2 1) .empty) = (.error e, p) ∧
      e.kind ≠ .random ∧ p.source.asked = [3, 2, 2, 1] ∧ p.source.fault = none := by
  obtain ⟨asked, hrun, -, hkind, -⟩ := trigger_faultless Seeded.answers .builtin wildsFromNothing
    (Seeded.ofSeed 2) (.fresh 2 1) .empty
  have hasked : (wildsFromNothing.check .builtin []
      (Pass.start (Checked.start (Seeded.ofSeed 2)) (.fresh 2 1) .empty)).2.source.asked =
        [3, 2, 2, 1] := by decide +kernel
  have hfails : (trigger .builtin wildsFromNothing (Seeded.ofSeed 2) (.fresh 2 1)
      .empty).1.toBool = false := by decide +kernel
  rw [hrun] at hasked
  obtain rfl : asked = [3, 2, 2, 1] := hasked
  rcases hresult : (trigger .builtin wildsFromNothing (Seeded.ofSeed 2) (.fresh 2 1) .empty).1
    with e | ⟨⟩
  · exact ⟨e, _, by rw [hrun, hresult], hkind (by decide) e hresult, rfl, rfl⟩
  · rw [hresult] at hfails
    cases hfails

end SlotOutcome
