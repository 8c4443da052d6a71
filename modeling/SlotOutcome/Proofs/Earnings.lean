import Mathlib.Algebra.GroupWithZero.Nat
import SlotOutcome.Proofs.GridAudit

/-!
# The ledger as an account of what a round earns

Free spins, the multiplier of the round and its wins are changed by six types of features, which may
stand anywhere in a tree, be repeated, and be drawn at random. All of them note what they do, so the
new entries of a pass, read in order, lead from what the round had earned before it to what it has
earned after it.

```text
  free spins, multiplier, wins ── entry 1 ──► … ── entry n ──► free spins, multiplier, wins
```

An entry does not list the wins that an evaluation found, but says how many there are. A feature
that applies the multiplier to wins changes nothing else about them.

## Main definitions

* `Earnings`, `Earnings.Step`: what a round has earned, and what an entry says was done to it.
* `Earnings.Earned`: where the wins after some entries come from.
* `Earnings.Told`: what entries tell about the earnings before and after them.

## Main results

* `Effect.Makes.earnings_step`: a change does to the earnings what its entry says.
* `Earnings.Steps.told`: what a sequence of such entries tells.
* `trigger_earnings_told`: a pass accounts for what it earns.
-/

namespace SlotOutcome

/-! ### What an entry says -/

/-- What a round pays by and has won. -/
structure Earnings where
  freespins : UInt32
  multiplier : Float
  wins : List Win

/-- What the round of an outcome has earned. -/
def Outcome.earnings (o : Outcome) : Earnings := ⟨o.freespins, o.multiplier, o.wins⟩

/-- The free spins that an entry grants. -/
def Entry.spins (entry : Entry) : Nat :=
  if entry.tag = Effect.awardFreespins.tag then (entry.data.field? .nat "Spins").getD 0 else 0

/-- The wins that a payload of a type of feature stands for. Only evaluations, prizes and scatters
win anything. -/
inductive Effect.Pays : Effect → Json → List Win → Prop
  | evaluated (wins : List Win) :
    Pays .evaluateWins (Payload.evaluated wins.length (winSum wins)) wins
  | prize (label : String) (multiplier : Float) :
    Pays .instantPrize (Payload.prize label multiplier) [⟨label, multiplier, [], []⟩]
  | scatter (symbol : Symbol) (positions : List Nat) (multiplier : Float) :
    Pays .scatterPay (Payload.scatter positions.length multiplier)
      [⟨"Scatter", multiplier, [symbol], positions⟩]
  | nothing {e : Effect} (he : e ∉ [evaluateWins, instantPrize, scatterPay]) (payload : Json) :
    Pays e payload []

/-- The wins that an entry stands for. -/
def Entry.Pays (entry : Entry) (wins : List Win) : Prop :=
  ∃ e : Effect, entry.tag = e.tag ∧ e.Pays entry.data wins

/-- A win apart from its multiplier. -/
def Win.unpriced (w : Win) : String × List Symbol × List Nat := (w.label, w.symbols, w.positions)

namespace Earnings

/-- What a payload of a type of feature says was done to the earnings. -/
inductive Step (a : Earnings) : Effect → Json → Earnings → Prop
  | award {spins : Nat} (hspins : spins < UInt32.size) :
    Step a .awardFreespins (Payload.award spins (Pay.addSpins a.freespins (UInt32.ofNat spins)))
      { a with freespins := Pay.addSpins a.freespins (UInt32.ofNat spins) }
  | multiplied (factor : Float) :
    Step a .multiplier (Payload.multiplied factor (a.multiplier * factor))
      { a with multiplier := a.multiplier * factor }
  | applied (wilds : Option (List Nat)) :
    Step a .applyMultiplier (Payload.applied a.multiplier (a.wins.countP (Pay.touches wilds)))
      { a with wins := a.wins.map fun win =>
        if Pay.touches wilds win then Pay.scale a.multiplier win else win }
  | pays {e : Effect} {payload : Json} {wins : List Win}
      (he : e ∉ [.awardFreespins, .multiplier, .applyMultiplier]) (hpays : e.Pays payload wins) :
    Step a e payload { a with wins := a.wins ++ wins }

/-- What entries say was done to the earnings, one after another. -/
inductive Steps : Earnings → List Entry → Earnings → Prop
  | nil (a : Earnings) : Steps a [] a
  | cons {a b c : Earnings} {e : Effect} {payload : Json} {entries : List Entry} (id : UInt32)
      (hstep : a.Step e payload b) (hrest : Steps b entries c) :
    Steps a (⟨id, e.tag, payload⟩ :: entries) c

/-- How the wins after some entries come from those before them, and from what each entry stands
for. -/
structure Earned (wins : List Win) (entries : List Entry) (parts : List (List Win))
    (wins' : List Win) : Prop where
  pays : List.Forall₂ Entry.Pays entries parts
  /-- The wins of the entries follow in order. Only multipliers may have changed. -/
  unpriced_eq : wins'.map Win.unpriced = (wins ++ parts.flatten).map Win.unpriced
  /-- They do not change if no entry applies the multiplier of the round to wins. -/
  eq_of_unapplied : (∀ entry ∈ entries, entry.tag ≠ Effect.applyMultiplier.tag) →
    wins' = wins ++ parts.flatten
  /-- Nor do those of the wins that come after the last entry which does so. -/
  suffix_of_unapplied : ∀ n, (∀ entry ∈ entries.drop n, entry.tag ≠ Effect.applyMultiplier.tag) →
    (parts.drop n).flatten <:+ wins'

/-- What entries tell about the earnings before and after them. -/
structure Told (a : Earnings) (entries : List Entry) (a' : Earnings) : Prop where
  /-- All spins that were granted are there, as far as a counter can count them. -/
  freespins_eq : a'.freespins.toNat =
    min (a.freespins.toNat + (entries.map Entry.spins).sum) (UInt32.size - 1)
  /-- An entry that grants spins says how many there are after it. -/
  total_eq : ∀ before entry after, entries = before ++ entry :: after →
    entry.tag = Effect.awardFreespins.tag →
      entry.data.field? .nat "Spins" = some entry.spins ∧
      entry.data.field? .nat "Total" = some (min
        (a.freespins.toNat + ((before ++ [entry]).map Entry.spins).sum) (UInt32.size - 1))
  /-- The last entry about the multiplier tells it, unless it is no number. -/
  multiplier_eq : ∀ before entry after, entries = before ++ entry :: after →
    entry.tag = Effect.multiplier.tag → (∀ later ∈ after, later.tag ≠ Effect.multiplier.tag) →
      entry.data.field? .float "Total" = if a'.multiplier.isFinite then some a'.multiplier else none
  multiplier_kept : (∀ entry ∈ entries, entry.tag ≠ Effect.multiplier.tag) →
    a'.multiplier = a.multiplier
  earned : ∃ parts, Earned a.wins entries parts a'.wins

/-! ### One entry -/

theorem toNat_addSpins (x y : UInt32) :
    (Pay.addSpins x y).toNat = min (x.toNat + y.toNat) (UInt32.size - 1) := by
  have hsize : UInt32.size = 2 ^ 32 := rfl
  rw [Pay.addSpins, UInt32.toNat_ofNat_of_lt' (by omega)]

theorem fields_award {α : Type} (type : ParamType α) (spins : Nat) (total : UInt32) :
    (Payload.award spins total).field? type "Spins" = type.read (.ofNat spins) ∧
    (Payload.award spins total).field? type "Total" = type.read (.ofNat total.toNat) := by
  simp [Payload.award, Json.field?_ofFields, List.lookup_cons]

/-- An award can be read back. -/
theorem read_award {spins : Nat} (hspins : spins < UInt32.size) (total : UInt32) :
    (Payload.award spins total).field? .nat "Spins" = some spins ∧
    (Payload.award spins total).field? .nat "Total" = some total.toNat := by
  have hsize : UInt32.size < UInt64.size := by decide
  obtain ⟨hfield, hfield'⟩ := fields_award .nat spins total
  rw [hfield, hfield']
  exact ⟨ParamType.nat_read_ofNat (Nat.lt_trans hspins hsize),
    ParamType.nat_read_ofNat (Nat.lt_trans total.toNat_lt_size hsize)⟩

theorem field?_multiplied {α : Type} (type : ParamType α) (factor total : Float) :
    (Payload.multiplied factor total).field? type "Total" = type.read (.ofFloat total) := by
  simp [Payload.multiplied, Json.field?_ofFields]

theorem spins_of_ne {e : Effect} (h : e ≠ .awardFreespins) (id : UInt32) (payload : Json) :
    (⟨id, e.tag, payload⟩ : Entry).spins = 0 :=
  if_neg fun htag => h (Effect.tag_inj.mp htag)

theorem spins_award {spins : Nat} (hspins : spins < UInt32.size) (id : UInt32) (total : UInt32) :
    (⟨id, Effect.awardFreespins.tag, Payload.award spins total⟩ : Entry).spins = spins := by
  rw [Entry.spins, if_pos rfl, (read_award hspins total).1, Option.getD_some]

namespace Step

variable {a b : Earnings} {e : Effect} {payload : Json}

theorem freespins_eq (h : a.Step e payload b) (id : UInt32) : b.freespins.toNat =
    min (a.freespins.toNat + (⟨id, e.tag, payload⟩ : Entry).spins) (UInt32.size - 1) := by
  have hkept (he : e ≠ .awardFreespins) : a.freespins.toNat =
      min (a.freespins.toNat + (⟨id, e.tag, payload⟩ : Entry).spins) (UInt32.size - 1) := by
    have hbound := a.freespins.toNat_lt_size
    rw [spins_of_ne he]
    omega
  cases h with
  | award hspins => rw [spins_award hspins, toNat_addSpins, UInt32.toNat_ofNat_of_lt' hspins]
  | multiplied | applied => exact hkept nofun
  | pays he => exact hkept fun h => he (h ▸ List.mem_cons_self)

theorem total_eq (h : a.Step .awardFreespins payload b) (id : UInt32) :
    payload.field? .nat "Spins" =
      some (⟨id, Effect.awardFreespins.tag, payload⟩ : Entry).spins ∧
    payload.field? .nat "Total" = some b.freespins.toNat := by
  cases h with
  | award hspins =>
    rw [spins_award hspins]
    exact read_award hspins _
  | pays he => exact absurd List.mem_cons_self he

theorem multiplier_eq (h : a.Step .multiplier payload b) :
    payload.field? .float "Total" = if b.multiplier.isFinite then some b.multiplier else none := by
  cases h with
  | multiplied factor => rw [field?_multiplied, ParamType.float_read_ofFloat]
  | pays he => exact absurd (by decide) he

theorem multiplier_kept (h : a.Step e payload b) (he : e ≠ .multiplier) :
    b.multiplier = a.multiplier := by
  cases h with
  | multiplied => exact absurd rfl he
  | _ => rfl

theorem unpriced_applied (wilds : Option (List Nat)) (factor : Float) (win : Win) :
    (if Pay.touches wilds win then Pay.scale factor win else win).unpriced = win.unpriced := by
  split <;> rfl

theorem wins_eq (h : a.Step e payload b) : ∃ wins, e.Pays payload wins ∧
    b.wins.map Win.unpriced = (a.wins ++ wins).map Win.unpriced ∧
    (e ≠ .applyMultiplier → b.wins = a.wins ++ wins) := by
  cases h with
  | award | multiplied =>
    refine ⟨[], .nothing (by decide) _, ?_, fun _ => (List.append_nil _).symm⟩
    rw [List.append_nil]
  | applied wilds =>
    refine ⟨[], .nothing (by decide) _, ?_, fun he => absurd rfl he⟩
    rw [List.append_nil, List.map_map]
    exact List.map_congr_left fun win _ => unpriced_applied wilds a.multiplier win
  | pays _ hpays => exact ⟨_, hpays, rfl, fun _ => rfl⟩

/-- A feature of another type leaves the earnings. -/
theorem kept (he : e ∉ [.awardFreespins, .multiplier, .applyMultiplier, .evaluateWins,
    .instantPrize, .scatterPay]) (payload : Json) : a.Step e payload a := by
  have hstep : a.Step e payload { a with wins := a.wins ++ [] } :=
    .pays (fun h => he (List.mem_append_left _ h))
      (.nothing (fun h => he (List.mem_append_right [_, _, _] h)) payload)
  rwa [List.append_nil] at hstep

end Step

/-! ### One entry after another -/

namespace Steps

variable {a b c : Earnings} {entries later : List Entry}

theorem trans (h : Steps a entries b) (h' : Steps b later c) : Steps a (entries ++ later) c := by
  induction h with
  | nil => exact h'
  | cons id hstep _ ih => exact .cons id hstep (ih h')

/-- What some entries and then others say can be told apart. -/
theorem split (h : Steps a (entries ++ later) c) :
    ∃ b, Steps a entries b ∧ Steps b later c := by
  induction entries generalizing a with
  | nil => exact ⟨a, .nil a, h⟩
  | cons entry entries ih =>
    cases h with
    | cons id hstep hrest =>
      obtain ⟨b, hentries, hlater⟩ := ih hrest
      exact ⟨b, .cons id hstep hentries, hlater⟩

theorem freespins_eq (h : Steps a entries b) : b.freespins.toNat =
    min (a.freespins.toNat + (entries.map Entry.spins).sum) (UInt32.size - 1) := by
  induction h with
  | nil a =>
    have hbound := a.freespins.toNat_lt_size
    rw [List.map_nil, List.sum_nil]
    omega
  | cons id hstep _ ih =>
    rw [ih, hstep.freespins_eq id, List.map_cons, List.sum_cons]
    omega

theorem multiplier_kept (h : Steps a entries b)
    (hkept : ∀ entry ∈ entries, entry.tag ≠ Effect.multiplier.tag) :
    b.multiplier = a.multiplier := by
  induction h with
  | nil => rfl
  | cons id hstep _ ih =>
    obtain ⟨hentry, hentries⟩ := List.forall_mem_cons.mp hkept
    rw [ih hentries, hstep.multiplier_kept fun he => hentry (congrArg Effect.tag he)]

theorem earned (h : Steps a entries b) : ∃ parts, Earned a.wins entries parts b.wins := by
  induction h with
  | nil a =>
    have hnone : a.wins = a.wins ++ [] := (List.append_nil _).symm
    exact ⟨[], .nil, congrArg _ hnone, fun _ => hnone, fun n _ => by simp⟩
  | @cons a b c e payload entries id hstep _ ih =>
    obtain ⟨wins, hpays, hunpriced, heq⟩ := hstep.wins_eq
    obtain ⟨parts, hearned⟩ := ih
    have hall (hnone : ∀ entry ∈ (⟨id, e.tag, payload⟩ : Entry) :: entries,
        entry.tag ≠ Effect.applyMultiplier.tag) : c.wins = a.wins ++ (wins :: parts).flatten := by
      obtain ⟨hentry, hentries⟩ := List.forall_mem_cons.mp hnone
      rw [hearned.eq_of_unapplied hentries, heq fun he => hentry (congrArg Effect.tag he),
        List.append_assoc, List.flatten_cons]
    refine ⟨wins :: parts, .cons ⟨e, rfl, hpays⟩ hearned.pays, ?_, hall, fun n hnone => ?_⟩
    · rw [hearned.unpriced_eq, List.map_append, hunpriced, ← List.map_append, List.append_assoc,
        List.flatten_cons]
    · -- Either no entry applies the multiplier, or the first one is among those left out.
      cases n with
      | zero => exact ⟨a.wins, (hall hnone).symm⟩
      | succ n => exact hearned.suffix_of_unapplied n hnone

/-- What a sequence of entries tells about the earnings before and after it. -/
theorem told (h : Steps a entries b) : Told a entries b where
  freespins_eq := h.freespins_eq
  total_eq := by
    rintro before entry after rfl htag
    obtain ⟨d, hbefore, hafter⟩ := h.split
    cases hafter with
    | cons id hstep _ =>
      obtain rfl := Effect.tag_inj.mp htag
      obtain ⟨hspins, htotal⟩ := hstep.total_eq id
      refine ⟨hspins, ?_⟩
      rw [htotal, (hbefore.trans (.cons id hstep (.nil _))).freespins_eq]
  multiplier_eq := by
    rintro before entry after rfl htag hlast
    obtain ⟨d, -, hafter⟩ := h.split
    cases hafter with
    | cons id hstep hrest =>
      obtain rfl := Effect.tag_inj.mp htag
      rw [hrest.multiplier_kept hlast]
      exact hstep.multiplier_eq
  multiplier_kept := h.multiplier_kept
  earned := h.earned

end Steps

end Earnings

/-- A change does to the earnings what its entry says. -/
theorem Effect.Makes.earnings_step {s : RoundState} {e : Effect} {c : Change}
    (h : e.Makes s c) : s.outcome.earnings.Step e c.payload c.outcome.earnings := by
  cases h with
  | award hspins => exact .award hspins
  | multiplied => exact .multiplied _
  | applied haffected => exact haffected ▸ .applied _
  | evaluated => exact .pays (by decide) (.evaluated _)
  | prize => exact .pays (by decide) (.prize _ _)
  | scatter => exact .pays (by decide) (.scatter _ _ _)
  | _ => exact .kept (by decide) _

/-! ### Passes -/

/-- The new ledger entries say what happened to the earnings. -/
def Law.accounted : Law where
  Rel o o' := ∃ new, o'.ledger = o.ledger ++ new ∧ Earnings.Steps o.earnings new o'.earnings
  refl o := ⟨[], (List.append_nil _).symm, .nil _⟩
  trans := by
    rintro o₁ o₂ o₃ ⟨new, hledger, hsteps⟩ ⟨new', hledger', hsteps'⟩
    refine ⟨new ++ new', ?_, hsteps.trans hsteps'⟩
    rw [hledger', hledger, List.append_assoc]

/-- A feature does to the earnings what it notes. -/
theorem Law.accounted_perform {s : RoundState} {d : Definition} {e : Effect} (htag : d.tag = e.tag)
    {change : Option Change} (h : e.MakesOnly s change) :
    Law.accounted.Rel s.outcome (s.perform d change).outcome := by
  refine ⟨_, s.ledger_perform h.keepsLedger, ?_⟩
  rcases change with _ | change
  · exact .nil _
  · rw [htag]
    exact .cons d.id (h change rfl).earnings_step (.nil _)

/-- The ledger accounts for free spins, the multiplier and wins. A pass in which no step was taken
over, whether it succeeds or fails, adds entries to the ledger which tell what the round had earned
before it and what it has earned after it. -/
theorem trigger_earnings_told {σ : Type} [RandomSource σ] {d : Definition} {source : σ}
    {s : RoundState} {bag : Bag} {r : Except FeatureError Unit} {p : Pass σ}
    (hrun : trigger .builtin d source s bag = (r, p))
    (hreveals : ∀ v ∈ p.visits, ¬v.node.Reveals s.stateful) :
    ∃ new, p.state.outcome.ledger = s.outcome.ledger ++ new ∧
      Earnings.Told s.outcome.earnings new p.state.outcome.earnings := by
  obtain ⟨-, hlaw⟩ := Law.accounted.of_trigger (fun _ => False)
    (fun n e htag _ s change hmakes => Law.accounted_perform htag hmakes) hrun
  obtain ⟨new, hledger, hsteps⟩ := hlaw fun v hv => ⟨hreveals v hv, not_false⟩
  exact ⟨new, hledger, hsteps.told⟩

/-- Two scatters on one reel, where an evaluation finds two wins. -/
def twoScatters : RoundState where
  __ := RoundState.fresh 1 2
  evaluator := some fun _ _ => [⟨"Line", 0.5, [1], [0]⟩, ⟨"Line", 1.0, [1], [1]⟩]
  outcome :=
    { Outcome.blank 1 2 with
      grid := ⟨1, 2, [1, 1], rfl⟩
      freespins := 7 }

/-- Pays in every way that there is. The second award is greater than what the counter has left. -/
def everyPay : Definition where
  id := 1
  tag := "Activator"
  params := .empty
  features := [
    ⟨2, "EvaluateWins", .empty, []⟩,
    ⟨3, "AwardFreespins", Bag.empty.insert "Spins" (.ofNat 10), []⟩,
    ⟨4, "Multiplier", Bag.empty.insert "Multiplier" (.ofFloat 2.0), []⟩,
    ⟨5, "ApplyMultiplier", .empty, []⟩,
    ⟨6, "InstantPrize", (Bag.empty.insert "Prize" (.ofFloat 5.0)).insert "PrizeLabel"
      (.str "Jackpot"), []⟩,
    ⟨7, "ScatterPay", ((Bag.empty.insert "ScatterId" (.ofInt 1)).insert "Pays"
      (.arr [.ofFloat 3.0])).insert "PayFrom" (.ofNat 2), []⟩,
    ⟨8, "AwardFreespins", Bag.empty.insert "Spins" (.ofNat 4294967290), []⟩]

/-- The wins of the evaluation are doubled, those that come later are not, and the counter of free
spins is full. -/
theorem trigger_earnings_told_everyPay :
    ∃ p new, trigger .builtin everyPay (Script.ofDraws []) twoScatters .empty = (.ok (), p) ∧
      p.state.outcome.ledger = new ∧
      Earnings.Told twoScatters.outcome.earnings new p.state.outcome.earnings ∧
      p.state.outcome.freespins = 4294967295 ∧ p.state.outcome.multiplier = 2.0 ∧
      p.state.outcome.wins = [⟨"Line", 1.0, [1], [0]⟩, ⟨"Line", 2.0, [1], [1]⟩,
        ⟨"Jackpot", 5.0, [], []⟩, ⟨"Scatter", 3.0, [1], [0, 1]⟩] := by
  rcases hrun : trigger .builtin everyPay (Script.ofDraws []) twoScatters .empty with ⟨r, p⟩
  have hr : (trigger .builtin everyPay (Script.ofDraws []) twoScatters .empty).1 = .ok () := by
    decide +kernel
  have hvisits : ∀ v ∈ (trigger .builtin everyPay (Script.ofDraws []) twoScatters .empty).2.visits,
      ¬v.node.Reveals twoScatters.stateful := by decide +kernel
  have hend : (trigger .builtin everyPay (Script.ofDraws []) twoScatters
      .empty).2.state.outcome.freespins = 4294967295 ∧
    (trigger .builtin everyPay (Script.ofDraws []) twoScatters
      .empty).2.state.outcome.multiplier = 2.0 ∧
    (trigger .builtin everyPay (Script.ofDraws []) twoScatters .empty).2.state.outcome.wins =
      [⟨"Line", 1.0, [1], [0]⟩, ⟨"Line", 2.0, [1], [1]⟩, ⟨"Jackpot", 5.0, [], []⟩,
        ⟨"Scatter", 3.0, [1], [0, 1]⟩] := by decide +kernel
  rw [hrun] at hr hvisits hend
  obtain rfl : r = .ok () := hr
  obtain ⟨new, hledger, htold⟩ := trigger_earnings_told hrun hvisits
  exact ⟨p, new, rfl, hledger, htold, hend⟩

end SlotOutcome
