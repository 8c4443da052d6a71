import SlotOutcome.Proofs.LedgerTexts
import SlotOutcome.Proofs.Trees

/-!
# Definitions read back

A definition is read back from its text, if the containers of the text do not nest too deep. Empty
parameters and children are left out of the text and come back as what a missing field stands for.

A level of the tree takes two containers, the record and the list of its children, and parameters
nest below the record that holds them. So the limit is stated for the tree that the text spells.

## Main definitions

* `Tree.nesting`: how deep the containers of a tree nest.

## Main results

* `Json.nesting_toTree`: a value nests as deep as its tree.
* `Definition.ofTree?_toTree`: a definition is read back from its tree.
* `Definition.ofText_text`: a definition is read back from its text.
-/

namespace SlotOutcome

/-! ### Nesting -/

mutual

/-- How deep the containers of a tree nest. -/
def Tree.nesting : Tree → ℕ
  | .arr items => treesNesting items + 1
  | .obj fields => fields.nesting + 1
  | _ => 0

/-- How deep the containers of trees nest. -/
def treesNesting : List Tree → ℕ
  | [] => 0
  | item :: rest => max item.nesting (treesNesting rest)

/-- How deep the containers of the values of members nest. -/
def Fields.nesting : Fields → ℕ
  | .nil => 0
  | .cons _ value rest => max value.nesting rest.nesting

end

theorem treesNesting_le_iff {n : ℕ} {items : List Tree} :
    treesNesting items ≤ n ↔ ∀ item ∈ items, item.nesting ≤ n := by
  induction items with
  | nil => simp [treesNesting]
  | cons item rest ih => rw [treesNesting, sup_le_iff, ih, List.forall_mem_cons]

mutual

/-- A value nests as deep as its tree. -/
theorem Json.nesting_toTree : (j : Json) → j.toTree.nesting = j.nesting
  | .null | .bool _ | .num _ | .str _ => rfl
  | .arr items => congrArg (· + 1) (treesNesting_toTrees items)
  | .obj members => congrArg (· + 1) (nesting_toFields members)

theorem treesNesting_toTrees : (items : List Json) →
    treesNesting (Json.toTrees items) = itemsNesting items
  | [] => rfl
  | item :: rest => by
    rw [Json.toTrees, treesNesting, item.nesting_toTree, treesNesting_toTrees rest, itemsNesting]

theorem nesting_toFields : {above : Option String} → (m : Members above) →
    m.toFields.nesting = m.nesting
  | _, .nil => rfl
  | _, .cons _ value _ rest => by
    rw [Members.toFields, Fields.nesting, value.nesting_toTree, nesting_toFields rest,
      Members.nesting]

end

/-! ### Definitions -/

namespace Definition

theorem toTrees_eq_map (ds : List Definition) : toTrees ds = ds.map toTree := by
  induction ds with
  | nil => rfl
  | cons d rest ih => rw [toTrees, ih, List.map_cons]

/-- The tree of the parameters, unless they are left out. -/
def paramsTree? (d : Definition) : Option Tree :=
  if d.params.isEmpty then none else some (Json.obj d.params).toTree

/-- The tree of the children, unless they are left out. -/
def featuresTree? (d : Definition) : Option Tree :=
  if d.features.isEmpty then none else some (.arr (d.features.map toTree))

theorem toTree_eq (d : Definition) : d.toTree =
    .record ([("Id", .ofNat d.id.toNat), ("Type", .ofString d.tag)] ++
      (d.paramsTree?.map fun t => ("Params", t)).toList ++
      (d.featuresTree?.map fun t => ("Features", t)).toList) := by
  obtain ⟨id, tag, params, features⟩ := d
  rw [paramsTree?, featuresTree?, ← toTrees_eq_map]
  rcases features with _ | ⟨first, rest⟩ <;> rcases params with _ | ⟨key, value, habove, more⟩ <;>
    rw [toTree] <;> rfl

theorem fields?_toTree (d : Definition) : d.toTree.fields? false fieldNames =
    some [some (.ofNat d.id.toNat), some (.ofString d.tag), d.paramsTree?, d.featuresTree?] := by
  rw [toTree_eq]
  rcases d.paramsTree? with _ | params <;> rcases d.featuresTree? with _ | features <;> rfl

theorem nesting_toTree (d : Definition) : d.toTree.nesting =
    max (d.paramsTree?.elim 0 Tree.nesting) (d.featuresTree?.elim 0 Tree.nesting) + 1 := by
  rw [toTree_eq]
  rcases d.paramsTree? with _ | params <;> rcases d.featuresTree? with _ | features <;>
    simp [Tree.record, Fields.ofList, Tree.nesting, Fields.nesting, Tree.ofNat, Tree.ofString]

/-- The parameters that a tree describes. -/
def paramsOfTree? (depth : ℕ) (t : Tree) : Option Bag := do (← t.toJson? depth).toBag?

/-- The children that a tree describes. -/
def featuresOfTree? (depth : ℕ) (t : Tree) : Option (List Definition) := do
  let items ← t.items?
  match depth with
  | 0 => none
  | depth + 1 => items.mapM (ofTree? depth)

theorem ofTree?_of_fields {t : Tree} {id params features : Option Tree} {tag : Tree}
    (h : t.fields? false fieldNames = some [id, some tag, params, features]) (depth : ℕ) :
    ofTree? (depth + 1) t = (do
      let id ← id.elim (some 0) Tree.toUInt32?
      let tag ← tag.toText?
      let params ← params.elim (some .nil) (paramsOfTree? depth)
      let features ← features.elim (some []) (featuresOfTree? depth)
      some ⟨id, tag, params, features⟩) := by
  rw [ofTree?, h]
  rfl

/-- Parameters are read back, also if they are left out. -/
theorem elim_paramsTree? (d : Definition) (depth : ℕ) :
    d.paramsTree?.elim (some .nil) (paramsOfTree? depth) =
      if d.paramsTree?.elim 0 Tree.nesting ≤ depth then some d.params else none := by
  obtain ⟨id, tag, params, features⟩ := d
  rcases params with _ | ⟨key, value, habove, rest⟩
  · rfl
  · have hread : paramsOfTree? depth (Json.obj (.cons key value habove rest)).toTree =
        if (Json.obj (.cons key value habove rest)).nesting ≤ depth then
          some (.cons key value habove rest) else none := by
      rw [paramsOfTree?, Json.toJson?_toTree]
      split_ifs <;> rfl
    rwa [← Json.nesting_toTree] at hread

/-- Children are read back if each child is, also if they are left out. -/
theorem elim_featuresTree? (d : Definition)
    (ih : ∀ c ∈ d.features, ∀ depth,
      ofTree? depth c.toTree = if c.toTree.nesting ≤ depth then some c else none) (depth : ℕ) :
    d.featuresTree?.elim (some []) (featuresOfTree? depth) =
      if d.featuresTree?.elim 0 Tree.nesting ≤ depth then some d.features else none := by
  rw [featuresTree?]
  by_cases hempty : d.features.isEmpty = true
  · rw [if_pos hempty, List.isEmpty_iff.mp hempty]
    rfl
  rw [if_neg hempty, Option.elim_some, Option.elim_some, Tree.nesting, featuresOfTree?]
  rcases depth with _ | depth
  · rfl
  · have hread : (d.features.map toTree).mapM (ofTree? depth) =
        if ∀ c ∈ d.features, c.toTree.nesting ≤ depth then some d.features else none := by
      rw [List.mapM_map]
      exact mapM_ite fun c hc => ih c hc depth
    simp only [Tree.items?, Option.bind_eq_bind, Option.bind_some, hread,
      Nat.add_le_add_iff_right, treesNesting_le_iff, List.forall_mem_map]

/-- A definition is read back from its tree, if the tree does not nest too deep. -/
theorem ofTree?_toTree (d : Definition) (depth : ℕ) :
    ofTree? depth d.toTree = if d.toTree.nesting ≤ depth then some d else none := by
  induction d using Definition.induction generalizing depth with
  | node d ih =>
    rcases depth with _ | depth
    · rw [nesting_toTree]
      rfl
    · rw [ofTree?_of_fields d.fields?_toTree, d.elim_paramsTree? depth,
        d.elim_featuresTree? ih depth, Option.elim_some, Tree.toUInt32?_ofNat, nesting_toTree]
      simp only [Nat.add_le_add_iff_right, sup_le_iff, ite_and]
      obtain ⟨id, tag, params, features⟩ := d
      split_ifs <;> rfl

/-- Every literal in the tree of a definition denotes something. -/
theorem isWritten_toTree (d : Definition) : d.toTree.IsWritten := by
  induction d using Definition.induction with
  | node d ih =>
    rw [toTree_eq]
    refine Tree.isWritten_record fun field hfield => ?_
    simp only [List.mem_append, List.mem_cons, List.not_mem_nil, or_false, Option.mem_toList,
      Option.map_eq_some_iff] at hfield
    obtain ((rfl | rfl) | ⟨t, ht, rfl⟩) | ⟨t, ht, rfl⟩ := hfield
    · exact (Json.ofNat d.id.toNat).isWritten_toTree
    · exact (Json.str d.tag).isWritten_toTree
    · obtain ⟨-, ⟨⟩⟩ := Option.ite_none_left_eq_some.mp ht
      exact (Json.obj d.params).isWritten_toTree
    · obtain ⟨-, ⟨⟩⟩ := Option.ite_none_left_eq_some.mp ht
      exact Tree.isWritten_arr (List.forall_mem_map.mpr ih)

/-- A definition is read back from its text, as it is: with every id and tag, the children in their
order and the parameters with the kinds of their numbers. Only a text whose containers nest too deep
is refused. -/
theorem ofText_text (d : Definition) : ∃ t, Tree.ofString? d.text = some t ∧
    ofText d.text = if t.nesting ≤ containerLimit then .ok d
      else .error (.serialization "malformed definition") := by
  have hread : Tree.ofString? d.text = some d.toTree := Tree.ofBytes?_text d.isWritten_toTree
  refine ⟨d.toTree, hread, ?_⟩
  rw [ofText, hread, Option.bind_some, ofTree?_toTree]
  split_ifs <;> rfl

end Definition

end SlotOutcome
