import SlotOutcome.Proofs.Changes
import SlotOutcome.Proofs.Kept

/-!
# Laws of outcomes

No feature changes what stands around the outcome of a state: the stake, what wins are paid by, and
the links backwards. What features do to the outcome itself may follow a law, a relation between
the outcomes before and after that composes. A pass follows a law if the changes of the features
that were triggered do, and if none of them takes over a step that was computed before, since such a
step has an outcome of its own.

## Main definitions

* `RoundState.setting`: what stands around an outcome.
* `Law`: relations between outcomes that compose.
* `Definition.Reveals`: a definition takes over a step when it is triggered.

## Main results

* `Atom.setting_eq`: no atom changes what stands around the outcome.
* `Law.of_trigger`: a pass follows a law if no feature that was triggered spoils it.
-/

namespace SlotOutcome

/-- What stands around the outcome of a state and belongs to the round as a whole: the stake, what
wins are paid by, and the links backwards. -/
def RoundState.setting (s : RoundState) :
    Float × Option String × Option Evaluator × Option RoundState × Option RoundState :=
  (s.stake, s.paytable, s.evaluator, s.stateful, s.stateless)

theorem RoundState.setting_perform (s : RoundState) (d : Definition) (change : Option Change) :
    (s.perform d change).setting = s.setting := by
  rcases change with _ | change <;> rfl

theorem RoundState.ledger_perform {s : RoundState} {d : Definition} {change : Option Change}
    (h : KeepsLedger s change) :
    (s.perform d change).outcome.ledger =
      s.outcome.ledger ++ change.toList.map fun c => ⟨d.id, d.tag, c.payload⟩ := by
  rcases change with _ | change
  · exact (List.append_nil _).symm
  · change change.outcome.ledger ++ _ = _
    rw [h change rfl]
    rfl

theorem RoundState.stateful_of_setting {s s' : RoundState} (h : s'.setting = s.setting) :
    s'.stateful = s.stateful := congrArg (fun setting => setting.2.2.2.1) h

theorem RoundState.stateless_of_setting {s s' : RoundState} (h : s'.setting = s.setting) :
    s'.stateless = s.stateless := congrArg (fun setting => setting.2.2.2.2) h

theorem RoundState.stake_of_setting {s s' : RoundState} (h : s'.setting = s.setting) :
    s'.stake = s.stake := congrArg Prod.fst h

/-- No atom changes what stands around the outcome. -/
theorem Atom.setting_eq {σ τ : Type} [RandomSource σ] [RandomSource τ] {d : Definition}
    {e : Effect} {α : Type} {act : RoundState → Bag → PlanM σ (α × RoundState × Bag)}
    {act' : RoundState → Bag → PlanM τ (α × RoundState × Bag)} (hatom : Atom d e act act')
    {s s' : RoundState} {bag bag' : Bag} {x x' : σ} {a : α}
    (hrun : act s bag x = (.ok (a, s', bag'), x')) : s'.setting = s.setting := by
  by_cases hsequel : e.isSequel
  · cases hatom with
    | leaf h _ =>
      rw [Effect.isSequel_of_leaf? h] at hsequel
      cases hsequel
    | begun | chained _ | ended =>
      cases hrun
      rfl
    | reveals =>
      unfold Act.reveals at hrun
      rcases hpending : Reveal.pending s with _ | ⟨link, rest, tries⟩ <;> rw [hpending] at hrun <;>
        cases hrun <;> rfl
    | decides =>
      obtain ⟨ceiling, y, -, hrun⟩ := bind_run_eq_ok.mp hrun
      split at hrun <;> cases hrun <;> rfl
    | chance _ | pick _ _ | choice _ | counts | chooses | counting | seeking => cases hsequel
  · obtain ⟨change, -, hchange⟩ := hatom.exists_change (eq_false_of_ne_true hsequel) s bag
      _ ⟨x, x', hrun⟩
    obtain rfl : s' = s.perform d change := hchange
    exact s.setting_perform d change

/-! ### Taking over a step -/

/-- A definition takes over a step when it is triggered, if the previous round is the given one. All
features of a pass, those of the steps that it computes too, have the same previous round. -/
def Definition.Reveals (previous : Option RoundState) (d : Definition) : Prop :=
  d.tag = "Replay" ∧ ∃ round ∈ previous, round.chain ≠ []

instance (previous : Option RoundState) (d : Definition) : Decidable (d.Reveals previous) :=
  match previous with
  | none => isFalse fun h => by obtain ⟨-, round, hround, -⟩ := h; cases hround
  | some round =>
    decidable_of_iff (d.tag = "Replay" ∧ round.chain.isEmpty = false) (by
      simp [Definition.Reveals, List.isEmpty_eq_false_iff])

/-- The steps that wait to be revealed are the chain of the round before. -/
theorem Reveal.exists_of_pending {s link : RoundState} {rest : List RoundState} {tries : UInt32}
    (h : pending s = some (link, rest, tries)) :
    ∃ previous, s.stateful = some previous ∧ previous.chain = link :: rest := by
  unfold pending at h
  rcases hstateful : s.stateful with _ | previous <;> rw [hstateful] at h
  · cases h
  rcases hchain : previous.chain with _ | ⟨first, left⟩ <;> simp only [hchain] at h <;> cases h
  exact ⟨previous, rfl, hchain⟩

/-- A definition that could take over a step and does not finds none. -/
theorem Reveal.pending_of_not_reveals {d : Definition} {s : RoundState} (htag : d.tag = "Replay")
    (h : ¬d.Reveals s.stateful) : pending s = none := by
  rcases hpending : pending s with _ | ⟨link, rest, tries⟩
  · rfl
  · obtain ⟨previous, hstateful, hchain⟩ := exists_of_pending hpending
    exact absurd ⟨htag, previous, hstateful, by rw [hchain]; exact List.cons_ne_nil _ _⟩ h

/-- Where no step is taken over, a feature that could do so does nothing. -/
theorem Act.reveals_eq_of_not_reveals {σ : Type} {d : Definition} {s : RoundState}
    (htag : d.tag = "Replay") (h : ¬d.Reveals s.stateful) (bag : Bag) :
    (Act.reveals s bag : PlanM σ (Bool × RoundState × Bag)) = pure (false, s, bag) := by
  rw [Act.reveals, Reveal.pending_of_not_reveals htag h]

/-! ### Laws -/

/-- A relation between the outcomes before and after a part of a pass that holds of parts that do
nothing and of one part after another. -/
structure Law where
  Rel : Outcome → Outcome → Prop
  refl : ∀ o, Rel o o
  trans : ∀ {o₁ o₂ o₃}, Rel o₁ o₂ → Rel o₂ o₃ → Rel o₁ o₃

namespace Law

variable (L : Law) (Spoils : Option RoundState → Definition → Prop)

/-- A law as it holds of a part of a pass: unless one of the given definitions, or one that was
triggered meanwhile, spoils it. -/
def spared (given : List Definition) : Kept where
  Rel v s v' s' := s'.setting = s.setting ∧ ∃ new, v' = new ++ v ∧
    ((∀ n ∈ given, ¬Spoils s.stateful n) → (∀ w ∈ new, ¬Spoils s.stateful w.node) →
      L.Rel s.outcome s'.outcome)
  refl _ s := ⟨rfl, [], rfl, fun _ _ => L.refl s.outcome⟩
  trans := by
    rintro v₁ s₁ v₂ s₂ v₃ s₃ ⟨hsetting, new, rfl, h⟩ ⟨hsetting', new', rfl, h'⟩
    rw [RoundState.stateful_of_setting hsetting] at h'
    refine ⟨hsetting'.trans hsetting, new' ++ new, (List.append_assoc _ _ _).symm, ?_⟩
    intro hgiven hnew
    exact L.trans (h hgiven fun w hw => hnew w (List.mem_append_right _ hw))
      (h' hgiven fun w hw => hnew w (List.mem_append_left _ hw))

variable {L Spoils} {σ : Type}

theorem spared_mono {m : PassM σ Unit} (h : (L.spared Spoils []).Keeps m) (d : Definition) :
    (L.spared Spoils [d]).Keeps m := by
  intro p r q hrun
  obtain ⟨hsetting, new, hvisits, hrel⟩ := h p r q hrun
  exact ⟨hsetting, new, hvisits, fun _ => hrel fun _ hn => nomatch hn⟩

/-- A node follows a law if its feature does as long as the node does not spoil it. -/
theorem enter_spared {registry : Registry} {above : List Definition} {d : Definition}
    {work : Effect → PassM σ Unit}
    (h : ∀ e, registry.create d.tag = .ok e → (L.spared Spoils [d]).Keeps (work e)) :
    (L.spared Spoils []).Keeps (d.enter registry above work) := by
  refine Kept.enter_keeps_of_entered _ fun e hcreate p r q hwork => ?_
  obtain ⟨hsetting, new, hvisits, hrel⟩ := h e hcreate _ _ _ hwork
  refine ⟨hsetting, new ++ [⟨above, d, d.params.overlay p.bag⟩], ?_, fun _ hnew => ?_⟩
  · rw [List.append_assoc]
    exact hvisits
  · refine hrel (fun n hn => ?_) fun w hw => hnew w (List.mem_append_left _ hw)
    obtain rfl := List.mem_singleton.mp hn
    exact hnew _ (List.mem_append_right _ List.mem_cons_self)

variable [RandomSource σ]

/-- A tree follows a law if the atoms of the nodes that do not spoil it do. -/
theorem trigger_spared {registry : Registry}
    (hatoms : ∀ (n : Definition) e, registry.create n.tag = .ok e → ∀ {α : Type}
      {act act' : RoundState → Bag → PlanM σ (α × RoundState × Bag)}, Atom n e act act' →
        ∀ s bag x a s' bag' x', act s bag x = (.ok (a, s', bag'), x') → ¬Spoils s.stateful n →
          L.Rel s.outcome s'.outcome)
    (d : Definition) (above : List Definition) :
    (L.spared Spoils []).Keeps (d.trigger registry above : PassM σ Unit) := by
  induction d using Definition.induction generalizing above with
  | node d ih =>
    rw [Definition.trigger_eq]
    refine enter_spared fun e hcreate => Kept.run_keeps _ (fun child hchild => ?_) ?_ ?_
    · obtain ⟨c, hc, rfl⟩ := List.mem_map.mp hchild
      exact spared_mono (ih c hc _) d
    · intro α act act' hatom s bag x a s' bag' x' hrun v
      refine ⟨hatom.setting_eq hrun, [], rfl, fun hgiven _ => ?_⟩
      exact hatoms d e hcreate hatom s bag x a s' bag' x' hrun (hgiven d List.mem_cons_self)
    · -- A step has an outcome of its own, and the one of the state stays.
      rintro - v s v' s' ⟨-, new, hvisits, -⟩ t
      exact ⟨rfl, new, hvisits, fun _ _ => L.refl _⟩

/-- A pass leaves what stands around the outcome, and follows a law that all changes follow, unless
a feature that was triggered took over a step or spoils the law. The features that spoil it are told
by their definitions. -/
theorem of_trigger (L : Law) (spoils : Definition → Prop)
    (hchanges : ∀ (n : Definition) (e : Effect), n.tag = e.tag → ¬spoils n → ∀ s change,
      e.MakesOnly s change → L.Rel s.outcome (s.perform n change).outcome)
    {d : Definition} {source : σ} {s : RoundState} {bag : Bag} {r : Except FeatureError Unit}
    {p : Pass σ} (hrun : trigger .builtin d source s bag = (r, p)) :
    p.state.setting = s.setting ∧
      ((∀ v ∈ p.visits, ¬v.node.Reveals s.stateful ∧ ¬spoils v.node) →
        L.Rel s.outcome p.state.outcome) := by
  have hkeeps : (L.spared (fun previous n => n.Reveals previous ∨ spoils n) []).Keeps
      (d.trigger .builtin [] : PassM σ Unit) := by
    refine trigger_spared (fun n e hcreate α act act' hatom s bag x a s' bag' x' hact hspoils => ?_)
      d []
    have htag := (Registry.tag_of_create_builtin hcreate).symm
    by_cases hsequel : e.isSequel
    · by_cases hreplay : e = .replay
      · subst hreplay
        cases hatom with
        | leaf h _ => cases h
        | reveals =>
          rw [Act.reveals_eq_of_not_reveals htag fun h => hspoils (.inl h)] at hact
          cases hact
          exact L.refl _
      · obtain ⟨-, -, houtcome⟩ := hatom.sequel_frame hsequel hreplay hact
        rw [houtcome]
        exact L.refl _
    · obtain ⟨change, hmakes, hchange⟩ := hatom.makes (eq_false_of_ne_true hsequel) s bag _
        ⟨x, x', hact⟩
      obtain rfl : s' = s.perform n change := hchange
      exact hchanges n e htag (fun h => hspoils (.inr h)) s change hmakes
  obtain ⟨hsetting, new, hvisits, hrel⟩ := hkeeps _ _ _ hrun
  refine ⟨hsetting, fun hspared => hrel (fun _ hn => nomatch hn) fun w hw => ?_⟩
  have hmem : w ∈ p.visits := by
    rw [hvisits]
    exact List.mem_append_left _ hw
  rintro (hreveals | hspoils)
  · exact (hspared w hmem).1 hreveals
  · exact (hspared w hmem).2 hspoils

end Law

end SlotOutcome
