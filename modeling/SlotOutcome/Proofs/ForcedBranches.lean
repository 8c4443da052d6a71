import SlotOutcome.Engine
import SlotOutcome.Proofs.SharedBag

/-!
# Where forced outcomes come from

Outside developer mode the parameters that force an outcome are taken out of the request before the
round begins. They are looked for at the top of the request only. So a forced outcome may still come
in below another parameter, namely among the values that a feature for setting parameters finds in
its bag, and if bags are written back it reaches the features after that one.

This file follows all parameters through a pass. Of each that a feature finds it is known where it
comes from: from the request, from a definition, from a feature that set it, or from a counter that
raised it as a flag. Overrides cannot come from the first two, and a flag forces nothing. Where no
feature sets an override, the pass is the one that draws everything.

## Main definitions

* `Key.Forces`, `Bag.ForcesNothing`, `Members.forcesNowhere`: the keys of overrides.
* `Effect.Forced`, `Visit.TakesForced`: a feature takes a forced branch.
* `Definition.draw`: a tree at work that draws every stop and every choice.
* `SetBy`, `Bag.Sourced`, `Traced`: where the parameters in a bag come from.
* `drawing`: drawing everything and still doing the same, as a relation between parts of passes.

## Main results

* `drawing.trigger`: a tree does the same as one that draws everything, if no override is set.
* `trigger_unforced`: forced branches in production.
-/

namespace SlotOutcome

/-! ### Overrides -/

/-- An operator overrides an outcome under this key. -/
def Key.Forces (key : String) : Prop := key.startsWith Key.forceStem = true

instance (key : String) : Decidable (Key.Forces key) :=
  inferInstanceAs (Decidable (key.startsWith Key.forceStem = true))

/-- The bag holds no overrides. -/
def Bag.ForcesNothing (bag : Bag) : Prop := ∀ key, Key.Forces key → bag.get? key = none

mutual

/-- No object inside a value has an override among its members. -/
def Json.forcesNowhere : Json → Bool
  | .arr items => itemsForceNowhere items
  | .obj members => members.forcesNowhere
  | _ => true

/-- `Json.forcesNowhere` for all items of an array. -/
def itemsForceNowhere : List Json → Bool
  | [] => true
  | item :: rest => item.forcesNowhere && itemsForceNowhere rest

/-- There is no override among the members, nor inside their values. -/
def Members.forcesNowhere : {above : Option String} → Members above → Bool
  | _, .nil => true
  | _, .cons key value _ rest =>
    !key.startsWith Key.forceStem && value.forcesNowhere && rest.forcesNowhere

end

theorem Members.forcesNowhere_of_get? {above : Option String} (m : Members above)
    (h : m.forcesNowhere = true) {key : String} {value : Json} (hvalue : m.get? key = some value) :
    ¬Key.Forces key ∧ value.forcesNowhere = true := by
  induction m using Members.induction with
  | nil => cases hvalue
  | cons k v hk rest ih =>
    rw [Members.forcesNowhere, Bool.and_eq_true, Bool.and_eq_true, Bool.not_eq_true'] at h
    obtain ⟨⟨hkey, hfirst⟩, hrest⟩ := h
    rw [get?] at hvalue
    split at hvalue
    · next heq =>
      cases hvalue
      subst heq
      exact ⟨Bool.eq_false_iff.mp hkey, hfirst⟩
    · exact ih hrest hvalue

/-- The keys of the context force nothing. -/
theorem Key.not_mem_context_of_forces {key : String} (h : Key.Forces key) :
    key ∉ Key.context := by
  intro hmem
  have hnone : ∀ key ∈ Key.context, ¬Key.Forces key := by decide +kernel
  exact hnone key hmem h

/-- Preparing a request for production takes out the overrides at its top. -/
theorem prepare_forcesNothing (bag : Bag) : (prepare false bag).ForcesNothing := by
  intro key hkey
  unfold Key.Forces at hkey
  change (bag.filter _).get? key = none
  rw [Members.get?_filter, hkey]
  rfl

/-- A feature of a type with this bag takes the branch that the value of a key forces. -/
inductive Effect.Forced (bag : Bag) : Effect → String → Prop
  | stops {stops : List Nat} (h : bag.find .positions "ForceStops" = .ok (some stops)) :
    Forced bag .reelStops "ForceStops"
  | index {index : Nat} (h : bag.find .nat "ForceIndex" = .ok (some index)) :
    Forced bag .weightedActivator "ForceIndex"

/-- The feature of a visit takes the branch that the value of a key forces. -/
def Visit.TakesForced (registry : Registry) (v : Visit) (key : String) : Prop :=
  ∃ e, registry.create v.node.tag = .ok e ∧ e.Forced v.bag key

/-- What forces a branch is not a flag. -/
theorem Effect.Forced.get? {e : Effect} {bag : Bag} {key : String} (h : e.Forced bag key) :
    Key.Forces key ∧ ∃ value, bag.get? key = some value ∧ value ≠ .bool true := by
  cases h with
  | stops h =>
    obtain ⟨value, hvalue, hread⟩ := Bag.present_of_find h
    refine ⟨by decide +kernel, value, hvalue, ?_⟩
    rintro rfl
    cases hread
  | index h =>
    obtain ⟨value, hvalue, hread⟩ := Bag.present_of_find h
    refine ⟨by decide +kernel, value, hvalue, ?_⟩
    rintro rfl
    cases hread

/-! ### Drawing everything -/

section Draw

variable {σ : Type} [RandomSource σ]

/-- Spins the strips in `Reels` and shows `Rows` symbols of each, at stops that are drawn. -/
def Spin.drawn (s : RoundState) (bag : Bag) : PlanM σ (Option Change) := do
  let strips ← Strip.allOfInts (← bag.require .intLists "Reels")
  let rows ← bag.require .nat "Rows"
  if rows = 0 then throw (invalid "Rows must be positive")
  let stops ← (drawStops strips : DrawM σ (List Nat))
  let grid ← Grid.ofReels (List.zipWith (fun strip stop => strip.window stop rows) strips stops)
  return some {
    outcome := { s.outcome with
      sourceGrid := grid
      grid := grid
      strips := strips.map Strip.symbols
      stops := stops }
    payload := Payload.stops stops }

/-- Reels that are spun without being forced are spun at stops that are drawn. -/
theorem Spin.drawn_of_reels {s : RoundState} {bag : Bag} {x y : σ} {change : Option Change}
    (hforced : ¬Effect.Forced bag .reelStops "ForceStops")
    (h : Spin.reels s bag x = (.ok change, y)) : Spin.drawn s bag x = (.ok change, y) := by
  rw [reels] at h
  rw [drawn]
  obtain ⟨listed, x₁, hlisted, h⟩ := bind_run_eq_ok.mp h
  obtain ⟨strips, x₂, hstrips, h⟩ := bind_run_eq_ok.mp h
  obtain ⟨rows, x₃, hrows, h⟩ := bind_run_eq_ok.mp h
  refine bind_run_eq_ok.mpr ⟨listed, x₁, hlisted, bind_run_eq_ok.mpr ⟨strips, x₂, hstrips, ?_⟩⟩
  refine bind_run_eq_ok.mpr ⟨rows, x₃, hrows, ?_⟩
  by_cases hzero : rows = 0
  · simp only [hzero, ↓reduceIte] at h ⊢
    exact h
  simp only [hzero, ↓reduceIte] at h ⊢
  obtain ⟨found, x₄, hfound, h⟩ := bind_run_eq_ok.mp h
  rw [liftM_run] at hfound
  rcases hfind : bag.find .positions "ForceStops" with e | _ | stops <;> rw [hfind] at hfound <;>
    cases hfound
  · exact h
  · exact absurd (.stops hfind) hforced

/-- Calls one child, drawn by `Weights` if there are any. -/
def Branch.drawn (d : Definition) (children : List (Child σ)) : PassM σ Unit := do
  let index ← fireDrawn children (← (← get).bag.find .weights "Weights")
  note d ⟨(← get).state.outcome, Payload.choice index⟩

/-- A child that is called by weight without being forced is drawn. -/
theorem Branch.drawn_of_weighted {d : Definition} {children : List (Child σ)} {p q : Pass σ}
    (hforced : ¬Effect.Forced p.bag .weightedActivator "ForceIndex")
    (h : Branch.weighted d children p = (.ok (), q)) :
    Branch.drawn d children p = (.ok (), q) := by
  rw [weighted, get_bind_run] at h
  rw [drawn, get_bind_run]
  obtain ⟨found, p₁, hfound, h⟩ := bind_run_eq_ok.mp h
  rw [liftM_run] at hfound
  rcases hfind : p.bag.find .nat "ForceIndex" with e | _ | forced <;> rw [hfind] at hfound <;>
    cases hfound
  · exact h
  · exact absurd (.index hfind) hforced

/-- The behaviour of a type of feature, with everything drawn that could be forced. -/
def Effect.runDrawn (d : Definition) (children : List (Child σ)) : Effect → PassM σ Unit
  | reelStops => carryOut d Spin.drawn
  | weightedActivator => Branch.drawn d children
  | e => e.run d children

namespace Definition

mutual

/-- A tree at work in which no feature has a branch that could be forced. -/
def draw (registry : Registry) (above : List Definition) : Definition → PassM σ Unit
  | ⟨id, tag, params, features⟩ =>
    let d : Definition := ⟨id, tag, params, features⟩
    let children := drawAll registry (above ++ [d]) features
    d.enter registry above fun e => e.runDrawn d children

/-- The children of a node, each with everything drawn. -/
def drawAll (registry : Registry) (above : List Definition) : List Definition → List (Child σ)
  | [] => []
  | d :: rest => ⟨d, draw registry above d⟩ :: drawAll registry above rest

end

theorem drawAll_eq_map (registry : Registry) (above : List Definition) :
    (ds : List Definition) → (drawAll registry above ds : List (Child σ)) =
      ds.map fun c => ⟨c, c.draw registry above⟩
  | [] => by rw [drawAll, List.map_nil]
  | d :: rest => by rw [drawAll, drawAll_eq_map registry above rest, List.map_cons]

theorem draw_eq (registry : Registry) (above : List Definition) (d : Definition) :
    (d.draw registry above : PassM σ Unit) = d.enter registry above fun e =>
      e.runDrawn d (d.features.map fun c => ⟨c, c.draw registry (above ++ [d])⟩) := by
  obtain ⟨id, tag, params, features⟩ := d
  rw [draw, drawAll_eq_map]

end Definition

end Draw

/-! ### Where parameters come from -/

section Sources

variable (registry : Registry) (origin : String → Json → Prop)

/-- A feature that was triggered has set a key to a value. -/
def SetBy (visits : List Visit) (key : String) (value : Json) : Prop :=
  ∃ v ∈ visits, ∃ values ∈ v.settings registry, values.get? key = some value

/-- The parameters in a bag are flags, or have their values from an origin, or were set to them by
features that were triggered. -/
def Bag.Sourced (visits : List Visit) (bag : Bag) : Prop :=
  ∀ key value, key ∉ Key.context → bag.get? key = some value →
    value = .bool true ∨ origin key value ∨ SetBy registry visits key value

/-- Each feature found in its bag only parameters that are flags, or have their values from an
origin, or were set to them by features that were triggered before. -/
def Traced : List Visit → Prop
  | [] => True
  | v :: earlier => v.bag.Sourced registry origin earlier ∧ Traced earlier

/-- No feature that was triggered sets an override. -/
def NoOverrides (visits : List Visit) : Prop :=
  ∀ v ∈ visits, ∀ values ∈ v.settings registry, values.ForcesNothing

variable {registry origin} {visits visits' : List Visit} {bag : Bag}

namespace Bag.Sourced

variable (h : bag.Sourced registry origin visits)

include h

theorem mono (hsubset : visits ⊆ visits') : bag.Sourced registry origin visits' := by
  intro key value hkey hvalue
  rcases h key value hkey hvalue with htrue | horigin | ⟨v, hv, hset⟩
  · exact .inl htrue
  · exact .inr (.inl horigin)
  · exact .inr (.inr ⟨v, hsubset hv, hset⟩)

theorem insert {key : String} (hkey : key ∈ Key.context) (value : Json) :
    Bag.Sourced registry origin visits (Members.insert bag key value) := by
  intro key' value' hkey' hvalue
  have hne : key' ≠ key := by
    rintro rfl
    exact hkey' hkey
  rw [Members.get?_insert, if_neg hne] at hvalue
  exact h key' value' hkey' hvalue

/-- A definition brings in its defaults. -/
theorem overlay {defaults : Bag}
    (hdefaults : ∀ key value, defaults.get? key = some value → origin key value) :
    (defaults.overlay bag).Sourced registry origin visits := by
  intro key value hkey hvalue
  rw [Bag.get?_overlay] at hvalue
  rcases hcaller : bag.get? key with _ | value'
  · rw [hcaller, Option.none_or] at hvalue
    exact .inr (.inl (hdefaults key value hvalue))
  · rw [hcaller, Option.some_or] at hvalue
    cases hvalue
    exact h key value hkey hcaller

/-- A feature that sets no parameters brings in flags at most. -/
theorem leaves {e : Effect} {left : Bag} (hleaves : e.Leaves bag left) :
    left.Sourced registry origin visits := by
  intro key value hkey hvalue
  rcases hleaves key fun hmem => hkey (e.writes_subset_context hmem) with hsame | ⟨-, -, hraised⟩
  · exact h key value hkey (hsame.symm.trans hvalue)
  · exact .inl (Option.some.inj (hvalue.symm.trans hraised))

end Bag.Sourced

theorem NoOverrides.not_setBy (h : NoOverrides registry visits) {key : String}
    (hkey : Key.Forces key) (value : Json) : ¬SetBy registry visits key value := by
  rintro ⟨v, hv, values, hvalues, hvalue⟩
  rw [h v hv values hvalues key hkey] at hvalue
  cases hvalue

theorem NoOverrides.of_suffix (h : NoOverrides registry visits') (hsuffix : visits <:+ visits') :
    NoOverrides registry visits := fun v hv => h v (hsuffix.subset hv)

theorem Traced.of_append {later earlier : List Visit}
    (h : Traced registry origin (later ++ earlier)) : Traced registry origin earlier := by
  induction later with
  | nil => exact h
  | cons v later ih => exact ih h.2

/-- The parameters that a visit sets stand in its bag. -/
theorem Visit.get?_of_settings {v : Visit} {values : Bag} (h : values ∈ v.settings registry) :
    v.bag.get? "Values" = some (.obj values) := by
  unfold settings at h
  split at h
  · next values' _ hvalues =>
    cases h
    obtain ⟨value, hvalue, hread⟩ := Bag.present_of_require hvalues
    cases value <;> cases hread
    exact hvalue
  · cases h

/-- Where the origin has overrides nowhere among the parameters to be set, none are set. -/
theorem Traced.forcesNowhere_settings (h : Traced registry origin visits)
    (horigin : ∀ value, origin "Values" value → value.forcesNowhere = true) :
    ∀ v ∈ visits, ∀ values ∈ v.settings registry, values.forcesNowhere = true := by
  induction visits with
  | nil => exact fun v hv => nomatch hv
  | cons v earlier ih =>
    refine List.forall_mem_cons.mpr ⟨fun values hvalues => ?_, ih h.2⟩
    have hvalue := Visit.get?_of_settings hvalues
    rcases h.1 "Values" _ (by decide) hvalue with htrue | hgiven | ⟨v', hv', values', hset, hvalue'⟩
    · cases htrue
    · exact horigin _ hgiven
    · exact (values'.forcesNowhere_of_get? (ih h.2 v' hv' values' hset) hvalue').2

variable (horigin : ∀ key value, origin key value → ¬Key.Forces key)

include horigin

/-- What a feature takes by force was set before. -/
theorem Bag.Sourced.setBy_of_forced (h : bag.Sourced registry origin visits) {e : Effect}
    {key : String} (hforced : e.Forced bag key) :
    ∃ value, bag.get? key = some value ∧ SetBy registry visits key value := by
  obtain ⟨hkey, value, hvalue, hne⟩ := hforced.get?
  rcases h key value (Key.not_mem_context_of_forces hkey) hvalue with htrue | hgiven | hset
  · exact absurd htrue hne
  · exact absurd hkey (horigin key value hgiven)
  · exact ⟨value, hvalue, hset⟩

/-- Without overrides that are set, nothing is taken by force. -/
theorem NoOverrides.not_forced (h : NoOverrides registry visits)
    (hbag : bag.Sourced registry origin visits) (e : Effect) (key : String) :
    ¬e.Forced bag key := by
  intro hforced
  obtain ⟨value, -, hset⟩ := hbag.setBy_of_forced horigin hforced
  exact h.not_setBy hforced.get?.1 value hset

end Sources

/-! ### Following the parameters -/

section Follow

variable {σ : Type} (registry : Registry) (origin : String → Json → Prop)

/-- Of all parameters, those that features found and those in the bag, it is known where they come
from. -/
def Tracked (visits : List Visit) (bag : Bag) : Prop :=
  Traced registry origin visits ∧ bag.Sourced registry origin visits

/-- Where it is known of all parameters where they come from, also those of another bag, it still is
so after the first computation. The second one does the same if the first one succeeds and no
override was set. -/
def DrawsAlike (other : Bag) {α : Type} (m m' : PassM σ α) : Prop :=
  ∀ p r q, m p = (r, q) → p.visits <:+ q.visits ∧
    (other.Sourced registry origin p.visits → Tracked registry origin p.visits p.bag →
      Tracked registry origin q.visits q.bag ∧
        (NoOverrides registry q.visits → ∀ a, r = .ok a → m' p = (.ok a, q)))

/-- Doing the same while nothing is forced, as a relation between parts of passes. -/
def drawing : BagLockstep σ σ where
  after other := {
    Rel := DrawsAlike registry origin other
    pure := fun a p r q hrun => by
      cases hrun
      exact ⟨List.suffix_rfl, fun _ h => ⟨h, fun _ a ha => by cases ha; rfl⟩⟩
    throw := fun e p r q hrun => by
      cases hrun
      exact ⟨List.suffix_rfl, fun _ h => ⟨h, fun _ _ => nofun⟩⟩
    bind := fun {α β m m' f f'} h hf p r q hrun => by
      rw [bind_run] at hrun
      rcases hm : m p with ⟨e | a, p'⟩ <;> rw [hm] at hrun
      · cases hrun
        obtain ⟨hsuffix, htracked⟩ := h p _ _ hm
        exact ⟨hsuffix, fun hother hp => ⟨(htracked hother hp).1, fun _ _ => nofun⟩⟩
      · obtain ⟨hsuffix, hfirst⟩ := h p _ _ hm
        obtain ⟨hsuffix', hthen⟩ := hf a p' r q hrun
        refine ⟨hsuffix.trans hsuffix', fun hother hp => ?_⟩
        obtain ⟨hp', hsame⟩ := hfirst hother hp
        obtain ⟨hq, hsame'⟩ := hthen (hother.mono hsuffix.subset) hp'
        refine ⟨hq, fun hnone b hb => bind_run_eq_ok.mpr ⟨a, p', ?_, hsame' hnone b hb⟩⟩
        exact hsame (hnone.of_suffix hsuffix') a rfl
    view := fun h p r q hrun => h p p rfl rfl p r q hrun }
  look h p r q hrun := by
    obtain ⟨hsuffix, htracked⟩ := h p p rfl rfl p r q hrun
    exact ⟨hsuffix, fun _ hp => htracked hp.2 hp⟩

namespace drawing

variable {registry origin} {other : Bag}

/-- After a part of a pass that has worked on another state with another bag, the pass goes on with
its own bag. -/
theorem elsewhere {bag : Bag} {m m' : PassM σ Unit}
    (hbag : ∀ visits, other.Sourced registry origin visits → bag.Sourced registry origin visits)
    (h : DrawsAlike registry origin other m m') {p q : Pass σ} {state : RoundState}
    {r : Except FeatureError Unit} (hrun : m { p with state := state, bag := bag } = (r, q)) :
    p.visits <:+ q.visits ∧
      (other.Sourced registry origin p.visits → Tracked registry origin p.visits p.bag →
        Tracked registry origin q.visits p.bag ∧ (NoOverrides registry q.visits → r = .ok () →
          m' { p with state := state, bag := bag } = (.ok (), q))) := by
  obtain ⟨hsuffix, htracked⟩ := h _ _ _ hrun
  refine ⟨hsuffix, fun hother hp => ?_⟩
  obtain ⟨hq, hsame⟩ := htracked hother ⟨hp.1, hbag _ hother⟩
  exact ⟨⟨hq.1, hp.2.mono hsuffix.subset⟩, fun hnone => hsame hnone ()⟩

theorem withBag {bag : Bag} {m m' : PassM σ Unit}
    (hbag : ∀ visits, other.Sourced registry origin visits → bag.Sourced registry origin visits)
    (h : DrawsAlike registry origin other m m') :
    DrawsAlike registry origin other (withBag bag m) (withBag bag m') := by
  intro p r q hrun
  rcases hm : m { p with bag := bag } with ⟨r', q'⟩
  rw [SlotOutcome.withBag, hm] at hrun
  cases hrun
  obtain ⟨hsuffix, htracked⟩ := elsewhere hbag h hm
  refine ⟨hsuffix, fun hother hp => ⟨(htracked hother hp).1, fun hnone a ha => ?_⟩⟩
  rcases r' with e | ⟨⟩
  · cases ha
  · rw [SlotOutcome.withBag, (htracked hother hp).2 hnone rfl, ← ha]

/-- A step runs with the bag that was handed on. -/
theorem onStep (state : RoundState) {m m' : PassM σ Unit}
    (h : DrawsAlike registry origin other m m') :
    DrawsAlike registry origin other (onStep state other m) (onStep state other m') := by
  intro p r q hrun
  rcases hm : m { p with state := state, bag := other } with ⟨r', q'⟩
  rw [SlotOutcome.onStep, hm] at hrun
  cases hrun
  obtain ⟨hsuffix, htracked⟩ := elsewhere (fun _ => id) h hm
  refine ⟨hsuffix, fun hother hp => ⟨(htracked hother hp).1, fun hnone a ha => ?_⟩⟩
  rcases r' with e | ⟨⟩
  · cases ha
  · rw [SlotOutcome.onStep, (htracked hother hp).2 hnone rfl, ← ha]

variable [RandomSource σ] {d : Definition} {e : Effect}

theorem atom (he : e ≠ .setParams) {α : Type}
    {act act' : RoundState → Bag → PlanM σ (α × RoundState × Bag)} (hatom : Atom d e act act') :
    DrawsAlike registry origin other (atomic act) (atomic act') := by
  obtain rfl := hatom.eq
  intro p r q hrun
  have hagain := hrun
  rw [atomic] at hrun
  rcases hact : act p.state p.bag p.source with ⟨error | ⟨a, s, bag⟩, x⟩ <;> rw [hact] at hrun <;>
    cases hrun
  · exact ⟨List.suffix_rfl, fun _ hp => ⟨hp, fun _ _ => nofun⟩⟩
  · refine ⟨List.suffix_rfl, fun _ hp => ⟨⟨hp.1, hp.2.leaves (e := e) ?_⟩, fun _ a ha => ?_⟩⟩
    · exact hatom.leaves p.state p.bag he _ ⟨p.source, x, hact⟩
    · cases ha
      exact hagain

variable (horigin : ∀ key value, origin key value → ¬Key.Forces key)

include horigin

/-- Spinning reels is drawing all stops, as long as nothing is forced. -/
theorem reels : DrawsAlike registry origin other (carryOut d Spin.reels : PassM σ Unit)
    (carryOut d Spin.drawn) := by
  have hleaf : Atom (σ := σ) (τ := σ) d .reelStops _ _ := .leaf rfl rfl
  intro p r q hrun
  have hatom := hrun
  rw [carryOut_eq_atomic] at hatom
  have halike : DrawsAlike registry origin other _ _ := atom (by decide) hleaf
  obtain ⟨hsuffix, htracked⟩ := halike p r q hatom
  refine ⟨hsuffix, fun hother hp => ⟨(htracked hother hp).1, fun hnone a ha => ?_⟩⟩
  subst ha
  obtain ⟨change, x, hreels, rfl⟩ := carryOut_run_ok.mp hrun
  have hforced := (hnone.of_suffix hsuffix).not_forced horigin hp.2 .reelStops "ForceStops"
  exact carryOut_run_ok.mpr ⟨change, x, Spin.drawn_of_reels hforced hreels, rfl⟩

/-- Calling a child by weight is drawing it, as long as nothing is forced. -/
theorem weighted {children children' : List (Child σ)}
    (h : ((drawing registry origin).after other).Children children children') :
    DrawsAlike registry origin other (Branch.weighted d children) (Branch.drawn d children') := by
  have halike : DrawsAlike registry origin other (Branch.weighted d children)
      (Branch.weighted d children') :=
    ((drawing registry origin).after other).weighted h fun hatom => atom (by decide) hatom
  intro p r q hrun
  obtain ⟨hsuffix, htracked⟩ := halike p r q hrun
  refine ⟨hsuffix, fun hother hp => ?_⟩
  obtain ⟨hq, hsame⟩ := htracked hother hp
  refine ⟨hq, fun hnone a ha => ?_⟩
  have hforced := (hnone.of_suffix hsuffix).not_forced horigin hp.2 .weightedActivator "ForceIndex"
  exact Branch.drawn_of_weighted hforced (hsame hnone a ha)

/-- A feature that sets no parameters does the same as the one that draws everything. -/
theorem feature (he : e ≠ .setParams) {children children' : List (Child σ)}
    (h : ∀ bag, ((drawing registry origin).after bag).Children children children') :
    DrawsAlike registry origin other (e.run d children) (e.runDrawn d children') := by
  by_cases hreels : e = .reelStops
  · subst hreels
    exact reels horigin
  by_cases hweighted : e = .weightedActivator
  · subst hweighted
    exact weighted horigin (h other)
  have hdrawn : e.runDrawn d children' = e.run d children' := by
    cases e <;> first | contradiction | rfl
  rw [hdrawn]
  refine (drawing registry origin).run h (fun _ _ _ _ hatom => atom he hatom) ?_ ?_ other
  · intro _ bag position positions m m' hm
    refine withBag (fun visits hbag => ?_) hm
    exact (hbag.insert (by decide) _).insert (by decide) _
  · exact fun _ bag previous m m' hm => onStep _ hm

omit horigin in
/-- The parameters that a feature sets are accounted for by its visit. -/
theorem setParams {p q : Pass σ} {r : Except FeatureError Unit} {children : List (Child σ)}
    {v : Visit} (hcreate : registry.create v.node.tag = .ok .setParams) (hv : v ∈ p.visits)
    (hbag : v.bag = p.bag) (hrun : Effect.setParams.run d children p = (r, q)) :
    q.visits = p.visits ∧
      (p.bag.Sourced registry origin p.visits → q.bag.Sourced registry origin p.visits) := by
  rw [Effect.run, remember, get_bind_run, Remember.setParams] at hrun
  rcases hvalues : p.bag.require .bag "Values" with error | values <;> rw [hvalues] at hrun <;>
    cases hrun
  · exact ⟨rfl, id⟩
  · refine ⟨rfl, fun hp key value hkey hvalue => ?_⟩
    change (p.bag.extend values).get? key = some value at hvalue
    rw [Bag.get?_extend] at hvalue
    rcases hset : values.get? key with _ | value'
    · rw [hset, Option.none_or] at hvalue
      exact hp key value hkey hvalue
    · rw [hset, Option.some_or] at hvalue
      cases hvalue
      exact .inr (.inr ⟨v, hv, values, Visit.settings_eq hcreate (hbag ▸ hvalues), hset⟩)

/-- A node whose defaults are from the origin does the same as one that draws everything, if its
children do. -/
theorem node {above : List Definition}
    (hd : ∀ key value, d.params.get? key = some value → origin key value)
    {children children' : List (Child σ)}
    (h : (drawing registry origin).always.Children children children') (other : Bag) :
    DrawsAlike registry origin other (d.enter registry above fun e => e.run d children)
      (d.enter registry above fun e => e.runDrawn d children') := by
  intro p r q hrun
  rcases hcreate : registry.create d.tag with error | e
  · rw [Definition.enter_run_unknown hcreate] at hrun
    cases hrun
    exact ⟨List.suffix_rfl, fun _ hp => ⟨hp, fun _ _ => nofun⟩⟩
  rcases hcollate : p.bag.isCollate with error | collate
  · rw [Definition.enter_run_unread hcreate hcollate] at hrun
    cases hrun
    exact ⟨List.suffix_rfl, fun _ hp => ⟨hp, fun _ _ => nofun⟩⟩
  rcases hwork : e.run d children (d.entered above p) with ⟨r', q'⟩
  have hfeature : (d.entered above p).visits <:+ q'.visits ∧
      (other.Sourced registry origin p.visits → Tracked registry origin p.visits p.bag →
        Tracked registry origin q'.visits q'.bag ∧
          (NoOverrides registry q'.visits → r' = .ok () →
            e.runDrawn d children' (d.entered above p) = (.ok (), q'))) := by
    have hentered (hp : Tracked registry origin p.visits p.bag) :
        Tracked registry origin (d.entered above p).visits (d.entered above p).bag :=
      ⟨⟨hp.2.overlay hd, hp.1⟩, (hp.2.overlay hd).mono (List.subset_cons_self _ _)⟩
    by_cases he : e = .setParams
    · subst he
      obtain ⟨hvisits, hsourced⟩ := setParams (v := ⟨above, d, d.params.overlay p.bag⟩) hcreate
        List.mem_cons_self rfl hwork
      refine ⟨hvisits ▸ List.suffix_rfl, fun _ hp => ?_⟩
      obtain ⟨htraced, hbag⟩ := hentered hp
      refine ⟨?_, fun _ hr => ?_⟩
      · rw [Tracked, hvisits]
        exact ⟨htraced, hsourced hbag⟩
      · subst hr
        exact hwork
    · have halike : DrawsAlike registry origin other (e.run d children) (e.runDrawn d children') :=
        feature horigin he ((drawing registry origin).children_of_always h)
      obtain ⟨hsuffix, htracked⟩ := halike _ _ _ hwork
      refine ⟨hsuffix, fun hother hp => ?_⟩
      obtain ⟨hq, hsame⟩ :=
        htracked (hother.mono (List.subset_cons_self _ _)) (hentered hp)
      exact ⟨hq, fun hnone hr => hsame hnone () hr⟩
  obtain ⟨hsuffix, htracked⟩ := hfeature
  rw [Definition.enter_run hcreate hcollate hwork] at hrun
  cases hrun
  have hsuffix' : p.visits <:+ q'.visits := (List.suffix_cons _ _).trans hsuffix
  refine ⟨hsuffix', fun hother hp => ?_⟩
  obtain ⟨hq, hsame⟩ := htracked hother hp
  refine ⟨⟨hq.1, ?_⟩, fun hnone a ha => ?_⟩
  · dsimp only
    split
    · exact hq.2
    · exact hp.2.mono hsuffix'.subset
  · rcases r' with error | ⟨⟩
    · cases ha
    · rw [Definition.enter_run hcreate hcollate (hsame hnone rfl)]
      rfl

/-- A tree whose defaults are from the origin does the same as the tree that draws everything. -/
theorem trigger
    (hd : ∀ n ∈ d.nodes, ∀ key value, n.params.get? key = some value → origin key value)
    (above : List Definition) :
    DrawsAlike registry origin other (d.trigger registry above : PassM σ Unit)
      (d.draw registry above) :=
  (drawing registry origin).always.trigger
    (fun n => ∀ key value, n.params.get? key = some value → origin key value)
    (fun _ _ _ _ hn h => node horigin hn h) (Definition.draw_eq registry) d above hd other

end drawing

end Follow

/-- A parameter has its value from a request or from a definition of a tree. -/
def Definition.Gives (d : Definition) (request : Bag) (key : String) (value : Json) : Prop :=
  request.get? key = some value ∨ ∃ n ∈ d.nodes, n.params.get? key = some value

theorem Visit.TakesForced.forces {registry : Registry} {v : Visit} {key : String}
    (h : v.TakesForced registry key) : Key.Forces key := by
  obtain ⟨e, -, hforced⟩ := h
  exact hforced.get?.1

/-- Forced branches in production, for a tree that has no overrides among its parameters. Whatever
the request, a feature takes a branch by force only if a feature that was triggered before it has
set the parameter that forces the branch. If none sets such parameters, no branch is taken by force,
and a pass that succeeds is the one in which every stop and every choice is drawn. None does if
what production leaves of the request has no overrides inside. -/
theorem trigger_unforced {σ : Type} [RandomSource σ] (registry : Registry) (d : Definition)
    (hd : ∀ n ∈ d.nodes, n.params.forcesNowhere = true) (source : σ) (s : RoundState) (bag : Bag) :
    ∃ r p, trigger registry d source s (prepare false bag) = (r, p) ∧
      (∀ later v earlier, p.visits = later ++ v :: earlier →
        ∀ key, v.TakesForced registry key →
          ∃ value, v.bag.get? key = some value ∧ SetBy registry earlier key value) ∧
      (NoOverrides registry p.visits →
        (∀ v ∈ p.visits, ∀ key, ¬v.TakesForced registry key) ∧
        (r = .ok () → d.draw registry [] (Pass.start source s (prepare false bag)) =
          (.ok (), p))) ∧
      ((prepare false bag).forcesNowhere = true → NoOverrides registry p.visits) := by
  rcases hrun : trigger registry d source s (prepare false bag) with ⟨r, p⟩
  have horigin : ∀ key value, d.Gives (prepare false bag) key value → ¬Key.Forces key := by
    rintro key value (hgiven | ⟨n, hn, hgiven⟩) hkey
    · rw [prepare_forcesNothing bag key hkey] at hgiven
      cases hgiven
    · exact (n.params.forcesNowhere_of_get? (hd n hn) hgiven).1 hkey
  have hbag : (prepare false bag).Sourced registry (d.Gives (prepare false bag)) [] :=
    fun key value _ hvalue => .inr (.inl (.inl hvalue))
  obtain ⟨-, htracked⟩ := drawing.trigger horigin
    (fun n hn key value hvalue => .inr ⟨n, hn, hvalue⟩) [] _ r p hrun
  obtain ⟨⟨htraced, -⟩, hsame⟩ := htracked hbag ⟨trivial, hbag⟩
  have hset : ∀ later v earlier, p.visits = later ++ v :: earlier →
      ∀ key, v.TakesForced registry key →
        ∃ value, v.bag.get? key = some value ∧ SetBy registry earlier key value := by
    rintro later v earlier hvisits key ⟨e, -, hforced⟩
    rw [hvisits] at htraced
    exact htraced.of_append.1.setBy_of_forced horigin hforced
  refine ⟨r, p, rfl, hset, fun hnone => ⟨fun v hv key hforced => ?_, fun hr => ?_⟩,
    fun hrequest v hv values hvalues key hkey => ?_⟩
  · obtain ⟨later, earlier, hvisits⟩ := List.append_of_mem hv
    obtain ⟨value, -, hset⟩ := hset later v earlier hvisits key hforced
    have hsuffix : v :: earlier <:+ p.visits := ⟨later, hvisits.symm⟩
    exact (hnone.of_suffix ((List.suffix_cons v earlier).trans hsuffix)).not_setBy
      hforced.forces value hset
  · exact hsame hnone () hr
  · have hnowhere := htraced.forcesNowhere_settings (fun value hgiven => ?_) v hv values hvalues
    · refine Option.eq_none_iff_forall_ne_some.mpr fun value hvalue => ?_
      exact (values.forcesNowhere_of_get? hnowhere hvalue).1 hkey
    · rcases hgiven with hgiven | ⟨n, hn, hgiven⟩
      · exact (Members.forcesNowhere_of_get? _ hrequest hgiven).2
      · exact (n.params.forcesNowhere_of_get? (hd n hn) hgiven).2

/-- Sets a parameter, and then awards five free spins or one. -/
def lottery : Definition := ⟨1, "Activator", .empty, [
  ⟨2, "SetParams", Bag.empty.insert "Values" (.obj (Bag.empty.insert "Lucky" (.bool true))), []⟩,
  ⟨3, "WeightedActivator", .empty, [
    ⟨4, "AwardFreespins", Bag.empty.insert "Spins" (.ofNat 5), []⟩,
    ⟨5, "AwardFreespins", Bag.empty.insert "Spins" (.ofNat 1), []⟩]⟩]⟩

/-- An override at the top of a request is taken out, and the award is drawn. -/
theorem trigger_unforced_lottery :
    (∀ n ∈ lottery.nodes, n.params.forcesNowhere = true) ∧
    ∃ p, trigger .builtin lottery (Script.ofDraws [1]) (.fresh 1 1)
        (prepare false (Bag.empty.insert "ForceIndex" (.ofNat 0))) = (.ok (), p) ∧
      p.state.outcome.freespins = 1 ∧ p.source = ⟨1, []⟩ ∧
      (∀ v ∈ p.visits, ∀ key, ¬v.TakesForced .builtin key) ∧
      lottery.draw .builtin [] (Pass.start (Script.ofDraws [1]) (.fresh 1 1)
        (prepare false (Bag.empty.insert "ForceIndex" (.ofNat 0)))) = (.ok (), p) := by
  have hd : ∀ n ∈ lottery.nodes, n.params.forcesNowhere = true := by decide +kernel
  obtain ⟨r, p, hrun, -, hdrawn, hnone⟩ := trigger_unforced .builtin lottery hd
    (Script.ofDraws [1]) (.fresh 1 1) (Bag.empty.insert "ForceIndex" (.ofNat 0))
  have hrequest : (prepare false (Bag.empty.insert "ForceIndex" (.ofNat 0))).forcesNowhere =
    true := by decide +kernel
  have hr : (trigger .builtin lottery (Script.ofDraws [1]) (.fresh 1 1)
    (prepare false (Bag.empty.insert "ForceIndex" (.ofNat 0)))).1 = .ok () := by decide +kernel
  have hspins : (trigger .builtin lottery (Script.ofDraws [1]) (.fresh 1 1)
    (prepare false (Bag.empty.insert "ForceIndex" (.ofNat 0)))).2.state.outcome.freespins = 1 := by
    decide +kernel
  have hsource : (trigger .builtin lottery (Script.ofDraws [1]) (.fresh 1 1)
    (prepare false (Bag.empty.insert "ForceIndex" (.ofNat 0)))).2.source = ⟨1, []⟩ := by
    decide +kernel
  rw [hrun] at hr hspins hsource
  obtain rfl : r = .ok () := hr
  obtain ⟨hforced, hdraw⟩ := hdrawn (hnone hrequest)
  exact ⟨hd, p, hrun, hspins, hsource, hforced, hdraw rfl⟩

/-- A request with an override below another parameter. -/
def riggedRequest : Bag := (Bag.empty.insert Key.collate (.bool true)).insert "Values"
  (.obj (Bag.empty.insert "ForceIndex" (.ofNat 0)))

/-- An override among the values to be set is not taken out: the award is forced, and the draw is
left over. -/
theorem lottery_forced :
    (∀ n ∈ lottery.nodes, n.params.forcesNowhere = true) ∧
    ∃ p, trigger .builtin lottery (Script.ofDraws [1]) (.fresh 1 1) (prepare false riggedRequest) =
        (.ok (), p) ∧
      p.state.outcome.freespins = 5 ∧ p.source = Script.ofDraws [1] ∧
      ∃ v ∈ p.visits, v.TakesForced .builtin "ForceIndex" := by
  rcases hrun : trigger .builtin lottery (Script.ofDraws [1]) (.fresh 1 1)
    (prepare false riggedRequest) with ⟨r, p⟩
  have hr : (trigger .builtin lottery (Script.ofDraws [1]) (.fresh 1 1)
    (prepare false riggedRequest)).1 = .ok () := by decide +kernel
  have hspins : (trigger .builtin lottery (Script.ofDraws [1]) (.fresh 1 1)
    (prepare false riggedRequest)).2.state.outcome.freespins = 5 := by decide +kernel
  have hsource : (trigger .builtin lottery (Script.ofDraws [1]) (.fresh 1 1)
    (prepare false riggedRequest)).2.source = Script.ofDraws [1] := by decide +kernel
  have hforced : ∃ v ∈ (trigger .builtin lottery (Script.ofDraws [1]) (.fresh 1 1)
    (prepare false riggedRequest)).2.visits,
      Registry.builtin.create v.node.tag = .ok .weightedActivator ∧
        v.bag.find .nat "ForceIndex" = .ok (some 0) := by decide +kernel
  rw [hrun] at hr hspins hsource hforced
  obtain rfl : r = .ok () := hr
  obtain ⟨v, hv, hcreate, hindex⟩ := hforced
  exact ⟨by decide +kernel, p, rfl, hspins, hsource, v, hv, .weightedActivator, hcreate,
    .index hindex⟩

end SlotOutcome
