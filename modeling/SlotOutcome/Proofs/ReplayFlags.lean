import SlotOutcome.Proofs.StakeOfSteps

/-!
# The flags of a sequence of steps

A state says of a sequence of steps whether it goes on and whether it was ended early, and it holds
the steps that are left. This file follows what a pass does to these marks. A state that goes on is
in the phase for it, and one that was ended early has no steps left, whatever gates are nested in
each other. A state that goes on has steps left too, with one exception: a feature that computes a
single step replaces the chain by that of its own sequence, which is empty, and keeps the decision
to go on that was taken below it while the chain of a longer sequence was there.

```text
  Play, one step            chain dropped, nothing decided
    Play, more steps        a chain is left
    ReplayContinue          steps are left: goes on
                            no further steps: the chain dropped, still going on
```

## Main definitions

* `RoundState.Marked`, `RoundState.Truthful`: the marks agree with each other, and with the chain.
* `Visit.Overwrites`: the exception.
* `flagLaw`: what a part of a pass does to the marks.

## Main results

* `trigger_truthful`: the marks agree with the chain after every pass without the exception.
-/

namespace SlotOutcome

open Reveal (pending)

/-! ### Marks -/

/-- The marks of a sequence agree with each other. -/
structure RoundState.Marked (s : RoundState) : Prop where
  goesOn : s.replay.continueFlag = true → s.replay.phase = .continue
  ended : s.replay.phase = .abort → s.chain = [] ∧ s.replay.continueFlag = false

/-- The marks of a sequence agree with the steps that are left, too. -/
structure RoundState.Truthful (s : RoundState) : Prop extends s.Marked where
  left : s.replay.continueFlag = true → s.chain ≠ []

/-- No step is left, and nothing goes on. -/
def RoundState.Idle (s : RoundState) : Prop := s.chain = [] ∧ s.replay.continueFlag = false

theorem RoundState.Idle.truthful {s : RoundState} (h : s.Idle) : s.Truthful where
  goesOn hflag := by
    rw [h.2] at hflag
    cases hflag
  ended _ := h
  left hflag := by
    rw [h.2] at hflag
    cases hflag

namespace Visit

/-- The feature of a visit decides whether the next steps will be revealed. -/
def Decides (v : Visit) : Prop := v.node.tag = "ReplayContinue"

/-- The feature of a visit computes sequences of one step. -/
def PlaysOne (v : Visit) : Prop :=
  v.node.tag = "Play" ∧ ∃ count, v.bag.findD .nat "Steps" 1 = .ok count ∧ count ≤ 1

/-- The feature of a visit computes sequences of more than one step. -/
def PlaysMore (v : Visit) : Prop :=
  v.node.tag = "Play" ∧ ∃ count, v.bag.findD .nat "Steps" 1 = .ok count ∧ 1 < count

instance (v : Visit) : Decidable v.PlaysOne :=
  match hcount : v.bag.findD .nat "Steps" 1 with
  | .ok count => decidable_of_iff (v.node.tag = "Play" ∧ count ≤ 1) (by simp [PlaysOne, hcount])
  | .error _ => isFalse (by simp [PlaysOne, hcount])

/-- The definition of a visit is below that of another one. -/
def IsBelow (w v : Visit) : Prop := v.above ++ [v.node] <+: w.above

/-- Below a feature that computes one step a longer sequence was computed, and it was decided
whether it goes on. -/
def Overwrites (visits : List Visit) (v : Visit) : Prop :=
  v.PlaysOne ∧ (∃ w ∈ visits, w.IsBelow v ∧ w.PlaysMore) ∧ ∃ w ∈ visits, w.IsBelow v ∧ w.Decides

theorem Overwrites.mono {visits visits' : List Visit} {v : Visit} (h : v.Overwrites visits)
    (hsubset : visits ⊆ visits') : v.Overwrites visits' := by
  obtain ⟨hone, ⟨w, hw, hmore⟩, w', hw', hdecides⟩ := h
  exact ⟨hone, ⟨w, hsubset hw, hmore⟩, w', hsubset hw', hdecides⟩

end Visit

/-! ### Visits below a definition -/

/-- The features that were triggered meanwhile are below the given definitions. -/
def visitsBelow (above : List Definition) : Kept where
  Rel v _ v' _ := ∃ new, v' = new ++ v ∧ ∀ w ∈ new, above <+: w.above
  refl _ _ := ⟨[], rfl, fun _ hw => nomatch hw⟩
  trans := by
    rintro v₁ - v₂ - v₃ - ⟨new, rfl, hnew⟩ ⟨new', rfl, hnew'⟩
    refine ⟨new' ++ new, (List.append_assoc _ _ _).symm, fun w hw => ?_⟩
    rcases List.mem_append.mp hw with hw | hw
    · exact hnew' w hw
    · exact hnew w hw

section Law

variable {σ : Type} [RandomSource σ]

theorem visitsBelow.trigger_keeps {registry : Registry} (d : Definition)
    (above : List Definition) :
    (visitsBelow above).Keeps (d.trigger registry above : PassM σ Unit) := by
  induction d using Definition.induction generalizing above with
  | node d ih =>
    rw [Definition.trigger_eq]
    refine Kept.enter_keeps _ (fun bag v s => ?_) fun e hcreate =>
      Kept.run_keeps _ (fun child hchild => ?_) ?_ fun _ _ _ _ _ h _ => h
    · refine ⟨[⟨above, d, bag⟩], rfl, fun w hw => ?_⟩
      obtain rfl := List.mem_singleton.mp hw
      exact List.prefix_rfl
    · obtain ⟨c, hc, rfl⟩ := List.mem_map.mp hchild
      intro p r q hrun
      obtain ⟨new, hvisits, hnew⟩ := ih c hc (above ++ [d]) p r q hrun
      exact ⟨new, hvisits, fun w hw => (List.prefix_append above [d]).trans (hnew w hw)⟩
    · intro α act act' hatom s bag x a s' bag' x' hrun v
      exact (visitsBelow above).refl v s

/-! ### What passes do to the marks -/

/-- What a part of a pass does to the marks. Marks that agree with each other still do. Going on
begins with a decision. Where no step waits to be revealed, a chain begins with a sequence of more
than one step. And marks that agree with the chain still do, unless a chain was overwritten. -/
def flagLaw : Kept where
  Rel v s v' s' := s'.setting = s.setting ∧ (s.Marked → s'.Marked) ∧ ∃ new, v' = new ++ v ∧
    ((∀ w ∈ new, ¬w.Decides) → s.replay.continueFlag = false → s'.replay.continueFlag = false) ∧
    (pending s = none → (∀ w ∈ new, ¬w.PlaysMore) → s.Idle → s'.Idle) ∧
    ((∀ w ∈ new, ¬w.Overwrites new) → s.Truthful → s'.Truthful)
  refl _ _ := ⟨rfl, id, [], rfl, fun _ => id, fun _ _ => id, fun _ => id⟩
  trans := by
    rintro v₁ s₁ v₂ s₂ v₃ s₃ ⟨hsetting, hmarked, new, rfl, hflag, hidle, htruthful⟩
      ⟨hsetting', hmarked', new', rfl, hflag', hidle', htruthful'⟩
    rw [RoundState.pending_of_setting hsetting] at hidle'
    have hsub : new ⊆ new' ++ new := List.subset_append_right new' new
    have hsub' : new' ⊆ new' ++ new := List.subset_append_left new' new
    refine ⟨hsetting'.trans hsetting, hmarked' ∘ hmarked, new' ++ new,
      (List.append_assoc _ _ _).symm, fun hnew => ?_, fun hpending hnew => ?_, fun hnew => ?_⟩
    · exact hflag' (fun w hw => hnew w (hsub' hw)) ∘ hflag fun w hw => hnew w (hsub hw)
    · exact hidle' hpending (fun w hw => hnew w (hsub' hw)) ∘
        hidle hpending fun w hw => hnew w (hsub hw)
    · exact htruthful' (fun w hw h => hnew w (hsub' hw) (h.mono hsub')) ∘
        htruthful fun w hw h => hnew w (hsub hw) (h.mono hsub)

namespace flagLaw

/-- A state with the same marks and the same chain. -/
theorem rel_of_same {s s' : RoundState} (hsetting : s'.setting = s.setting)
    (hreplay : s'.replay = s.replay) (hchain : s'.chain = s.chain) (new v : List Visit) :
    flagLaw.Rel v s (new ++ v) s' := by
  refine ⟨hsetting, fun h => ⟨?_, ?_⟩, new, rfl, fun _ => ?_, fun _ _ h => ?_, fun _ h => ?_⟩
  · rw [hreplay]
    exact h.goesOn
  · rw [hreplay, hchain]
    exact h.ended
  · rw [hreplay]
    exact id
  · unfold RoundState.Idle
    rwa [hreplay, hchain]
  · exact ⟨⟨hreplay ▸ h.goesOn, hreplay ▸ hchain ▸ h.ended⟩, hreplay ▸ hchain ▸ h.left⟩

/-- A state without steps left that does not go on. -/
theorem rel_of_idle {s s' : RoundState} (hsetting : s'.setting = s.setting) (h : s'.Idle)
    (new v : List Visit) : flagLaw.Rel v s (new ++ v) s' :=
  ⟨hsetting, fun _ => h.truthful.toMarked, new, rfl, fun _ _ => h.2, fun _ _ _ => h,
    fun _ _ => h.truthful⟩

/-- The atoms of most features follow the law whatever was triggered. -/
theorem atoms {d : Definition} {e : Effect} (hplay : e ≠ .play) (hdecides : e ≠ .replayContinue) :
    flagLaw.AtomsKeep σ d e := by
  intro α act act' hatom s bag x a s' bag' x' hrun v
  have hsetting := hatom.setting_eq hrun
  by_cases hsequel : e.isSequel
  · cases hatom with
    | leaf h _ =>
      rw [Effect.isSequel_of_leaf? h] at hsequel
      cases hsequel
    | begun | chained _ => exact absurd rfl hplay
    | decides => exact absurd rfl hdecides
    | reveals =>
      unfold Act.reveals at hrun
      rcases hpending : pending s with _ | ⟨link, rest, tries⟩ <;> rw [hpending] at hrun <;>
        cases hrun
      · exact flagLaw.refl v s
      · have hmarked : (RoundState.Marked { s.adopt link with
            chain := rest, replay := ⟨.replay, false, tries + 1⟩ }) := ⟨nofun, nofun⟩
        refine ⟨rfl, fun _ => hmarked, [], rfl, fun _ _ => rfl, fun hnone => ?_, fun _ _ => ?_⟩
        · rw [hpending] at hnone
          cases hnone
        · exact ⟨hmarked, nofun⟩
    | ended =>
      cases hrun
      exact rel_of_idle hsetting ⟨rfl, rfl⟩ [] v
    | chance _ | pick _ _ | choice _ | counts | chooses | counting | seeking => cases hsequel
  · obtain ⟨change, -, hchange⟩ := hatom.exists_change (eq_false_of_ne_true hsequel) s bag
      _ ⟨x, x', hrun⟩
    obtain rfl : s' = s.perform d change := hchange
    rcases change with _ | change <;> exact rel_of_same hsetting rfl rfl [] v

/-- A feature that decides whether the next steps will be revealed follows the law if it was
triggered. -/
theorem decided {v : Visit} (h : v.Decides) (ceiling : Nat) (s : RoundState) (visits : List Visit) :
    flagLaw.Rel visits s (v :: visits) (Reveal.decided ceiling s) := by
  unfold Reveal.decided
  split
  · next hgoes =>
    have hchain : s.chain ≠ [] := by
      intro hnil
      rw [hnil] at hgoes
      cases hgoes
    have htruthful : (RoundState.Truthful { s with
        replay := { s.replay with phase := .continue, continueFlag := true } }) :=
      ⟨⟨fun _ => rfl, nofun⟩, fun _ => hchain⟩
    refine ⟨rfl, fun _ => htruthful.toMarked, [v], rfl, fun hnew => ?_, fun _ _ hidle => ?_, ?_⟩
    · exact absurd h (hnew v List.mem_cons_self)
    · exact absurd hidle.1 hchain
    · exact fun _ _ => htruthful
  · have hidle : (RoundState.Idle { s with
        chain := [], replay := { s.replay with continueFlag := false } }) := ⟨rfl, rfl⟩
    exact rel_of_idle (by rfl) hidle [v] visits

omit [RandomSource σ] in
theorem goOn_keeps {d : Definition} {above : List Definition} {children : List (Child σ)}
    (hd : d.tag = "ReplayContinue") (hchildren : ∀ c ∈ children, flagLaw.Keeps c.trigger)
    {p q : Pass σ} {r : Except FeatureError Unit}
    (hrun : Reveal.goOn children (d.entered above p) = (r, q)) :
    flagLaw.Rel p.visits p.state q.visits q.state := by
  rw [goOn_eq, atomic_bind_run] at hrun
  rcases htries : (d.entered above p).bag.require .nat "Tries" with e | ceiling
  · rw [Act.decides, htries] at hrun
    cases hrun
    exact rel_of_same rfl rfl rfl [_] p.visits
  obtain ⟨goesOn, hdecides⟩ :=
    Reveal.decides_run (s := (d.entered above p).state) (d.entered above p).source htries
  rw [hdecides] at hrun
  have hvisit : Visit.Decides ⟨above, d, d.params.overlay p.bag⟩ := hd
  have hhere : flagLaw.Rel p.visits p.state (d.entered above p).visits
      (Reveal.decided ceiling p.state) := decided hvisit ceiling p.state p.visits
  cases goesOn
  · cases hrun
    exact hhere
  · exact flagLaw.trans hhere (flagLaw.fireAll_keeps hchildren _ _ _ hrun)

omit [RandomSource σ] in
/-- After the first step of a sequence of more than one, more steps are computed. -/
theorem followOn_ne_nil {children : List (Child σ)} {bag : Bag} {count : Nat} {s : RoundState}
    {p q : Pass σ} {links : List RoundState} (hcount : 1 < count)
    (hlinks : Reveal.followOn children bag (count - 1) s p = (.ok links, q)) : links ≠ [] := by
  obtain ⟨n, hn⟩ : ∃ n, count - 1 = n + 1 := ⟨count - 2, by omega⟩
  rw [hn, Reveal.followOn] at hlinks
  obtain ⟨step, p', -, hlinks⟩ := bind_run_eq_ok.mp hlinks
  split at hlinks
  · cases hlinks
    exact List.cons_ne_nil _ _
  · obtain ⟨rest, p'', -, hlinks⟩ := bind_run_eq_ok.mp hlinks
    cases hlinks
    exact List.cons_ne_nil _ _

omit [RandomSource σ] in
/-- A feature that computes steps follows the law if its children do, and what they trigger is below
it. -/
theorem play_keeps {d : Definition} {above : List Definition} {children : List (Child σ)}
    (hd : d.tag = "Play") (hchildren : ∀ c ∈ children, flagLaw.Keeps c.trigger)
    (hbelow : ∀ c ∈ children, (visitsBelow (above ++ [d])).Keeps c.trigger)
    {p q : Pass σ} {r : Except FeatureError Unit}
    (hrun : Reveal.play children (d.entered above p) = (r, q)) :
    flagLaw.Rel p.visits p.state q.visits q.state := by
  let v : Visit := ⟨above, d, d.params.overlay p.bag⟩
  have hidleBegun : (Act.begun p.state).Idle := ⟨rfl, rfl⟩
  have hbegun : flagLaw.Rel p.visits p.state (v :: p.visits) (Act.begun p.state) :=
    rel_of_idle (by rfl) hidleBegun [v] p.visits
  have hfire : flagLaw.Keeps (fireAll children) := flagLaw.fireAll_keeps hchildren
  have hsteps (count : Nat) (s : RoundState) :
      flagLaw.Keeps (Reveal.followOn children (d.entered above p).bag count s) := by
    refine flagLaw.followOn_keeps hchildren (fun {v s v' s'} h t => ?_) _ count s
    obtain ⟨-, -, new, rfl, -⟩ := h
    exact rel_of_same rfl rfl rfl new v
  cases Reveal.play_run hrun with
  | idle => exact rel_of_same rfl rfl rfl [v] p.visits
  | first hpending _ hfirst => exact flagLaw.trans hbegun (hfire _ _ _ hfirst)
  | failed hpending hcount hfirst hlinks =>
    exact flagLaw.trans (flagLaw.trans hbegun (hfire _ _ _ hfirst)) (hsteps _ _ _ _ _ hlinks)
  | @chained count links p₁ p₂ hpending hcount hfirst haborted hlinks =>
    obtain ⟨-, -, more, hmore, -⟩ := hsteps _ _ _ _ _ hlinks
    obtain ⟨hsetting, hmarked, new, hnew, hflag, hidle, htruthful⟩ := hfire _ _ _ hfirst
    obtain ⟨new', hnew', habove⟩ :=
      (visitsBelow (above ++ [d])).fireAll_keeps hbelow _ _ _ hfirst
    obtain rfl : new = new' := List.append_cancel_right (hnew.symm.trans hnew')
    have hvisits : p₂.visits = (more ++ new ++ [v]) ++ p.visits := by
      rw [hmore, hnew, List.append_assoc, List.append_assoc]
      rfl
    have hsub : new ⊆ more ++ new ++ [v] := fun w hw =>
      List.mem_append_left _ (List.mem_append_right _ hw)
    have hmem : v ∈ more ++ new ++ [v] := List.mem_append_right _ List.mem_cons_self
    have hended : (p₁.state.setChain links).replay.phase ≠ .abort := by
      intro habort
      rw [RoundState.aborted, beq_eq_false_iff_ne] at haborted
      exact haborted habort
    refine ⟨hsetting, fun h => ⟨(hmarked hidleBegun.truthful.toMarked).goesOn,
      fun habort => absurd habort hended⟩, more ++ new ++ [v], hvisits, fun hnone _ => ?_,
      fun hnone hshort _ => ?_, fun hnone _ => ?_⟩
    · exact hflag (fun w hw => hnone w (hsub hw)) rfl
    · have hcount' : ¬1 < count := fun hlt => hshort v hmem ⟨hd, count, hcount, hlt⟩
      have hzero : count - 1 = 0 := by omega
      rw [hzero] at hlinks
      cases hlinks
      exact ⟨rfl, (hidle hpending (fun w hw => hshort w (hsub hw)) hidleBegun).2⟩
    · have hfirstTruthful : p₁.state.Truthful :=
        htruthful (fun w hw h => hnone w (hsub hw) (h.mono hsub)) hidleBegun.truthful
      refine ⟨⟨hfirstTruthful.goesOn, fun habort => absurd habort hended⟩, fun hgoes => ?_⟩
      by_cases hcount' : 1 < count
      · exact fun hnil => followOn_ne_nil hcount' hlinks (List.map_eq_nil_iff.mp hnil)
      -- The chain is dropped though it goes on, so there was a chain below, and a decision.
      refine absurd ⟨⟨hd, count, hcount, Nat.le_of_not_lt hcount'⟩, ?_, ?_⟩ (hnone v hmem)
      · by_contra hmoreSteps
        have hquiet : p₁.state.Idle := hidle hpending
          (fun w hw h => hmoreSteps ⟨w, hsub hw, habove w hw, h⟩) hidleBegun
        exact Bool.false_ne_true (hquiet.2.symm.trans hgoes)
      · by_contra hdecided
        have hquiet := hflag (fun w hw h => hdecided ⟨w, hsub hw, habove w hw, h⟩) rfl
        exact Bool.false_ne_true (hquiet.symm.trans hgoes)

/-- A tree follows the law. -/
theorem trigger_keeps (d : Definition) (above : List Definition) :
    flagLaw.Keeps (d.trigger .builtin above : PassM σ Unit) := by
  induction d using Definition.induction generalizing above with
  | node d ih =>
    rw [Definition.trigger_eq]
    have hchildren : ∀ child ∈ d.features.map fun c =>
        (⟨c, c.trigger .builtin (above ++ [d])⟩ : Child σ), flagLaw.Keeps child.trigger := by
      intro child hchild
      obtain ⟨c, hc, rfl⟩ := List.mem_map.mp hchild
      exact ih c hc _
    refine flagLaw.enter_keeps_of_entered fun e hcreate p r q hrun => ?_
    have htag := (Registry.tag_of_create_builtin hcreate).symm
    by_cases hplay : e = .play
    · subst hplay
      refine play_keeps htag hchildren (fun child hchild => ?_) hrun
      obtain ⟨c, hc, rfl⟩ := List.mem_map.mp hchild
      exact visitsBelow.trigger_keeps c _
    by_cases hdecides : e = .replayContinue
    · subst hdecides
      exact goOn_keeps htag hchildren hrun
    have hvisit : flagLaw.Rel p.visits p.state (d.entered above p).visits p.state :=
      rel_of_same rfl rfl rfl [_] p.visits
    refine flagLaw.trans hvisit (flagLaw.run_keeps hchildren (atoms hplay hdecides)
      (fun he => absurd he hplay) _ _ _ hrun)

end flagLaw

end Law

/-- After a pass, whether it succeeds or fails, the marks of a sequence agree with each other, and
they agree with the steps that are left unless a feature that computes a single step has dropped the
chain of a longer sequence below it, after a decision below it to go on with that. -/
theorem trigger_truthful {σ : Type} [RandomSource σ] {d : Definition} {source : σ} {s : RoundState}
    {bag : Bag} {r : Except FeatureError Unit} {p : Pass σ}
    (hrun : trigger .builtin d source s bag = (r, p)) (hs : s.Truthful) :
    p.state.Marked ∧ ((∀ v ∈ p.visits, ¬v.Overwrites p.visits) → p.state.Truthful) := by
  obtain ⟨-, hmarked, new, hnew, -, -, htruthful⟩ := flagLaw.trigger_keeps d [] _ _ _ hrun
  obtain rfl : new = p.visits := by
    rw [hnew]
    exact (List.append_nil new).symm
  exact ⟨hmarked hs.toMarked, fun hvisits => htruthful hvisits hs⟩

/-- Computes two steps and goes on with the second one. -/
def twoStepsAndOn : Definition := ⟨1, "Activator", .empty, [
  ⟨2, "Play", Bag.empty.insert "Steps" (.ofNat 2), []⟩,
  ⟨3, "ReplayContinue", Bag.empty.insert "Tries" (.ofNat 5), []⟩]⟩

theorem truthful_fresh (reels rows : Nat) : (RoundState.fresh reels rows).Truthful :=
  RoundState.Idle.truthful ⟨rfl, rfl⟩

/-- The state goes on, and the second step is left. -/
theorem trigger_truthful_goesOn :
    ∃ p, trigger .builtin twoStepsAndOn (Script.ofDraws []) (.fresh 1 1) .empty = (.ok (), p) ∧
      p.state.Truthful ∧ p.state.replay.continueFlag = true ∧ p.state.chain ≠ [] := by
  rcases hrun : trigger .builtin twoStepsAndOn (Script.ofDraws []) (.fresh 1 1) .empty with ⟨r, p⟩
  have hr : (trigger .builtin twoStepsAndOn (Script.ofDraws []) (.fresh 1 1) .empty).1 =
    .ok () := by decide +kernel
  have hflag : (trigger .builtin twoStepsAndOn (Script.ofDraws []) (.fresh 1 1)
    .empty).2.state.replay.continueFlag = true := by decide +kernel
  have hvisits : ∀ v ∈ (trigger .builtin twoStepsAndOn (Script.ofDraws []) (.fresh 1 1)
    .empty).2.visits, ¬v.PlaysOne := by decide +kernel
  rw [hrun] at hr hflag hvisits
  obtain rfl : r = .ok () := hr
  have htruthful := (trigger_truthful hrun (truthful_fresh 1 1)).2
    fun v hv h => hvisits v hv h.1
  exact ⟨p, rfl, htruthful, hflag, htruthful.left hflag⟩

/-- Computes one step, which computes two and goes on with the second one. -/
def twoStepsInOne : Definition := ⟨1, "Play", .empty, [
  ⟨2, "Play", Bag.empty.insert "Steps" (.ofNat 2), []⟩,
  ⟨3, "ReplayContinue", Bag.empty.insert "Tries" (.ofNat 5), []⟩]⟩

/-- The state goes on though no step is left. -/
theorem not_truthful_twoStepsInOne : (RoundState.fresh 1 1).Truthful ∧
    ∃ p, trigger .builtin twoStepsInOne (Script.ofDraws []) (.fresh 1 1) .empty = (.ok (), p) ∧
      p.state.replay.continueFlag = true ∧ p.state.chain = [] ∧ ¬p.state.Truthful := by
  rcases hrun : trigger .builtin twoStepsInOne (Script.ofDraws []) (.fresh 1 1) .empty with ⟨r, p⟩
  have hr : (trigger .builtin twoStepsInOne (Script.ofDraws []) (.fresh 1 1) .empty).1 =
    .ok () := by decide +kernel
  have hflag : (trigger .builtin twoStepsInOne (Script.ofDraws []) (.fresh 1 1)
    .empty).2.state.replay.continueFlag = true := by decide +kernel
  have hlength : (trigger .builtin twoStepsInOne (Script.ofDraws []) (.fresh 1 1)
    .empty).2.state.chain.length = 0 := by decide +kernel
  rw [hrun] at hr hflag hlength
  obtain rfl : r = .ok () := hr
  have hchain : p.state.chain = [] := List.eq_nil_of_length_eq_zero hlength
  exact ⟨truthful_fresh 1 1, p, rfl, hflag, hchain, fun h => h.left hflag hchain⟩

end SlotOutcome
