import SlotOutcome.Effect.Run
import SlotOutcome.Registry

/-!
# Running a tree of features

Triggering a definition finds out what type of feature its tag names and sets the feature to work
with the features of its children at hand. An error leaves with the mark of the innermost feature
that failed.
-/

namespace SlotOutcome

variable {σ : Type} [RandomSource σ]

namespace Definition

mutual

/-- Triggers the feature of a definition; `above` lists the definitions above it. -/
def trigger (registry : Registry) (above : List Definition) : Definition → PassM σ Unit
  | ⟨id, tag, params, features⟩ =>
    let d : Definition := ⟨id, tag, params, features⟩
    let children := children registry (above ++ [d]) features
    inFeature d do
      let effect ← registry.create tag
      visit above d (effect.run d children)

/-- The triggers of children. -/
def children (registry : Registry) (above : List Definition) :
    List Definition → List (Child σ)
  | [] => []
  | d :: rest => ⟨d, trigger registry above d⟩ :: children registry above rest

end

end Definition

/-- Triggers a tree of features on a state, with a caller's bag. -/
def trigger (registry : Registry) (d : Definition) (source : σ) (state : RoundState) (bag : Bag) :
    Except FeatureError Unit × Pass σ :=
  d.trigger registry [] (Pass.start source state bag)

end SlotOutcome
