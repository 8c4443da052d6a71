import Mathlib.Data.List.Nodup
import SlotOutcome.Proofs.Trees

/-!
# The ways to call children

Children are called by a scan over all of them, by a scan with a predicate, one at an index, or by
names that a catalog gives them. Each child works on the state, the source and the bag that those
before it have left, and the first error ends them all. So two ways to call children agree when they
call the same children in the same order, and then they agree on all that a pass does, also when it
fails.

```text
  catalog    a   b   c            order      c   a   x   b
  child      0   1   2            called     2   0   ✗
```

## Main definitions

* `childNamed?`: the child that a catalog names.
* `noChildNamed`: why a name calls no child.

## Main results

* `fireWhere_eq`: a predicate on indices calls the children at these indices.
* `forM_range_fireAt`: going through all indices calls all children.
* `fireNamed_eq`: names call the children that they stand for, up to the first that stands for none.
* `Definition.children_called`: the ways to call the children of a definition agree.
-/

namespace SlotOutcome

section Calls

variable {σ : Type} (children : List (Child σ))

@[simp] theorem fireAll_cons (child : Child σ) :
    fireAll (child :: children) = child.trigger >>= fun _ => fireAll children := rfl

/-! ### Predicates and indices -/

/-- A scan with a predicate on indices calls the children at these indices. -/
theorem fireWhere_eq (p : Nat → Bool) :
    fireWhere children (fun index _ _ _ => p index) =
      fireAll ((children.zipIdx.filter fun child => p child.2).map Prod.fst) := by
  unfold fireWhere
  generalize 0 = start
  induction children generalizing start with
  | nil => rfl
  | cons child rest ih =>
    have hscan := ih (start + 1)
    change (if p start then child.trigger else pure ()) >>= (fun _ =>
      (rest.zipIdx (start + 1)).forM _) = _
    rw [List.zipIdx_cons, List.filter_cons]
    rcases p start with _ | _
    · exact hscan
    · exact congrArg (child.trigger >>= fun _ => ·) hscan

/-- A scan that passes over no child calls all of them. -/
theorem fireWhere_true : fireWhere children (fun _ _ _ _ => true) = fireAll children := by
  rw [fireWhere_eq children fun _ => true, List.filter_eq_self.mpr fun _ _ => rfl,
    List.zipIdx_map_fst]

/-- Among items that are counted from a start there is one with a given number. -/
private theorem filter_zipIdx {α : Type} {items : List α} {index : Nat} (h : index < items.length)
    (start : Nat) : (items.zipIdx start).filter (fun item => item.2 == start + index) =
      [(items.get ⟨index, h⟩, start + index)] := by
  induction items generalizing index start with
  | nil => cases h
  | cons first rest ih =>
    rw [List.zipIdx_cons, List.filter_cons]
    rcases index with _ | index
    · have hlater : (rest.zipIdx (start + 1)).filter (fun item => item.2 == start + 0) = [] := by
        refine List.filter_eq_nil_iff.mpr fun item hitem => ?_
        have hle := List.le_snd_of_mem_zipIdx hitem
        rw [beq_iff_eq]
        omega
      rw [hlater, if_pos (beq_iff_eq.mpr (Nat.add_zero start).symm)]
      rfl
    · have hother : (start == start + (index + 1)) = false := beq_false_of_ne (by omega)
      have hrest := ih (Nat.lt_of_succ_lt_succ h) (start + 1)
      rw [show start + 1 + index = start + (index + 1) by omega] at hrest
      rw [hother, if_neg Bool.false_ne_true, hrest]
      rfl

/-- A scan for one index calls the child there. -/
theorem fireWhere_index {index : Nat} (h : index < children.length) :
    fireWhere children (fun i _ _ _ => i == index) = (children.get ⟨index, h⟩).trigger := by
  have hchild := filter_zipIdx h 0
  rw [Nat.zero_add] at hchild
  rw [fireWhere_eq children (· == index), hchild]
  exact bind_pure_unit

/-- A child is called at its index. -/
theorem fireAt_of_lt {index : Nat} (h : index < children.length) :
    fireAt children index = (children.get ⟨index, h⟩).trigger := by
  rw [fireAt, List.getElem?_eq_getElem h]
  rfl

/-- No child is called at an index that is none of a child. -/
theorem fireAt_of_le {index : Nat} (h : children.length ≤ index) :
    fireAt children index = throw (invalid ("child index " ++ toString index ++ " out of " ++
      toString children.length ++ " children")) := by
  rw [fireAt, List.getElem?_eq_none h]

/-- Going through all indices calls all children. -/
theorem forM_range_fireAt :
    (List.range children.length).forM (fireAt children) = fireAll children := by
  -- The children before the index are called already; the scan is at those after it.
  suffices h : ∀ before rest : List (Child σ), before ++ rest = children →
      (List.range' before.length rest.length).forM (fireAt children) = fireAll rest by
    rw [List.range_eq_range']
    exact h [] children rfl
  intro before rest
  induction rest generalizing before with
  | nil => exact fun _ => rfl
  | cons child rest ih =>
    rintro rfl
    have hlt : before.length < (before ++ child :: rest).length := by simp
    have hchild : fireAt (before ++ child :: rest) before.length = child.trigger := by
      rw [fireAt_of_lt _ hlt]
      simp
    have hrest := ih (before ++ [child]) (List.append_assoc _ _ _)
    rw [List.length_append, List.length_singleton] at hrest
    rw [List.length_cons, List.range'_succ, fireAll_cons, ← hchild, ← hrest]
    rfl

/-! ### Names -/

/-- The child that a catalog names. -/
def childNamed? (catalog : List String) (name : String) : Option (Child σ) :=
  (catalog.zip children).lookup name

/-- Why a name calls no child: the catalog does not have it, or has it where there is no child. -/
def noChildNamed (catalog : List String) (name : String) : FeatureError :=
  match catalog.idxOf? name with
  | none => .config (.unresolvedName name)
  | some index => invalid ("child index " ++ toString index ++ " out of " ++
      toString children.length ++ " children")

theorem childNamed?_eq (catalog : List String) (name : String) :
    childNamed? children catalog name =
      (catalog.idxOf? name).bind fun index => children[index]? := by
  unfold childNamed?
  induction catalog generalizing children with
  | nil => rfl
  | cons first catalog ih =>
    rw [List.idxOf?_cons]
    rcases children with _ | ⟨child, rest⟩
    · simp
    · rw [List.zip_cons_cons, List.lookup_cons, ih]
      by_cases hname : name = first
      · simp [hname]
      · have hname' : (first == name) = false := beq_false_of_ne (Ne.symm hname)
        rw [beq_false_of_ne hname, hname', if_neg Bool.false_ne_true, Option.bind_map]
        rfl

/-- A name that stands for a child calls it. -/
theorem fireNamed_cons_of_some {catalog : List String} {name : String} {child : Child σ}
    (h : childNamed? children catalog name = some child) (order : List String) :
    fireNamed children (name :: order) catalog =
      child.trigger >>= fun _ => fireNamed children order catalog := by
  rw [childNamed?_eq] at h
  obtain ⟨index, hindex, hchild⟩ := Option.bind_eq_some_iff.mp h
  rw [fireNamed, List.forM, hindex]
  dsimp only
  rw [fireAt, hchild]
  rfl

/-- A name that stands for no child ends the pass. -/
theorem fireNamed_cons_of_none {catalog : List String} {name : String}
    (h : childNamed? children catalog name = none) (order : List String) :
    fireNamed children (name :: order) catalog = throw (noChildNamed children catalog name) := by
  rw [childNamed?_eq] at h
  rw [fireNamed, List.forM, noChildNamed]
  rcases hindex : catalog.idxOf? name with _ | index
  · rfl
  · rw [hindex] at h
    dsimp only
    rw [fireAt_of_le children (List.getElem?_eq_none_iff.mp h)]
    rfl

/-- Names call the children that they stand for one by one, up to the first name that stands for
none. -/
theorem fireNamed_eq (catalog order : List String) :
    fireNamed children order catalog = (do
      fireAll ((order.takeWhile fun name => (childNamed? children catalog name).isSome).filterMap
        (childNamed? children catalog))
      match order.dropWhile fun name => (childNamed? children catalog name).isSome with
      | [] => pure ()
      | name :: _ => throw (noChildNamed children catalog name)) := by
  induction order with
  | nil => rfl
  | cons name order ih =>
    rw [List.takeWhile_cons, List.dropWhile_cons]
    rcases hchild : childNamed? children catalog name with _ | child
    · rw [fireNamed_cons_of_none children hchild]
      rfl
    · rw [fireNamed_cons_of_some children hchild, ih]
      simp only [Option.isSome_some, ↓reduceIte, List.filterMap_cons, hchild, fireAll_cons,
        bind_assoc]

/-- Names that all stand for children call just these. -/
theorem fireNamed_of_named {catalog names : List String} {called : List (Child σ)}
    (h : names.map (childNamed? children catalog) = called.map some) :
    fireNamed children names catalog = fireAll called := by
  induction names generalizing called with
  | nil =>
    obtain rfl : called = [] := List.map_eq_nil_iff.mp h.symm
    rfl
  | cons name names ih =>
    rcases called with _ | ⟨child, called⟩
    · cases h
    obtain ⟨hchild, hrest⟩ := List.cons_eq_cons.mp h
    rw [fireNamed_cons_of_some children hchild, ih hrest, fireAll_cons]

/-- In a catalog of different names each of them stands for the child at its place. -/
theorem map_childNamed? {catalog : List String} (hdifferent : catalog.Nodup)
    (hlength : catalog.length = children.length) :
    catalog.map (childNamed? children catalog) = children.map some := by
  refine List.ext_getElem (by simpa using hlength) fun index hname hchild => ?_
  rw [List.length_map] at hname hchild
  have hindex : catalog.idxOf? catalog[index] = some index := by
    rw [List.idxOf?_eq_some_iff]
    refine ⟨hname, rfl, fun other hother heq => ?_⟩
    exact absurd (hdifferent.getElem_inj_iff.mp heq) (Nat.ne_of_lt hother)
  rw [List.getElem_map, List.getElem_map, childNamed?_eq, hindex]
  exact List.getElem?_eq_getElem hchild

/-- A catalog of different names in its own order calls all children. -/
theorem fireNamed_catalog {catalog : List String} (hdifferent : catalog.Nodup)
    (hlength : catalog.length = children.length) :
    fireNamed children catalog catalog = fireAll children :=
  fireNamed_of_named children (map_childNamed? children hdifferent hlength)

end Calls

/-- The ways to call the children of a definition agree on everything: on the result, also if it is
an error, and on the state, the bag and the source that they leave. Calling all of them is scanning
them with a predicate that always holds, naming them in the order of a catalog that has one name for
each of them, all different, and going through their indices. An index calls the child there and no
other, as a scan for that index does, and an index past the last child is an error. And names in any
order call the children that they stand for one by one, up to the first name that stands for none.
-/
theorem Definition.children_called {σ : Type} [RandomSource σ] (registry : Registry)
    (above : List Definition) (d : Definition) :
    let children : List (Child σ) := Definition.children registry above d.features
    fireAll children = (d.features.forM fun c => c.trigger registry above) ∧
    fireWhere children (fun _ _ _ _ => true) = fireAll children ∧
    (∀ catalog : List String, catalog.Nodup → catalog.length = d.features.length →
      fireNamed children catalog catalog = fireAll children) ∧
    (List.range d.features.length).forM (fireAt children) = fireAll children ∧
    (∀ index c, d.features[index]? = some c →
      fireAt children index = c.trigger registry above ∧
        fireWhere children (fun i _ _ _ => i == index) = c.trigger registry above) ∧
    (∀ index, d.features.length ≤ index → fireAt children index =
      throw (invalid ("child index " ++ toString index ++ " out of " ++
        toString d.features.length ++ " children"))) ∧
    ∀ catalog order : List String, fireNamed children order catalog = (do
      fireAll ((order.takeWhile fun name => (childNamed? children catalog name).isSome).filterMap
        (childNamed? children catalog))
      match order.dropWhile fun name => (childNamed? children catalog name).isSome with
      | [] => pure ()
      | name :: _ => throw (noChildNamed children catalog name)) := by
  intro children
  have hchildren : children = d.features.map fun c => ⟨c, c.trigger registry above⟩ :=
    children_eq_map registry above d.features
  have hlength : children.length = d.features.length := by rw [hchildren, List.length_map]
  refine ⟨?_, fireWhere_true children, fun catalog hdifferent hnames => ?_, ?_, ?_, ?_,
    fireNamed_eq children⟩
  · rw [hchildren]
    exact List.forM_map
  · exact fireNamed_catalog children hdifferent (hnames.trans hlength.symm)
  · rw [← hlength]
    exact forM_range_fireAt children
  · intro index c hc
    have hchild : children[index]? = some ⟨c, c.trigger registry above⟩ := by
      rw [hchildren, List.getElem?_map, hc]
      rfl
    obtain ⟨hlt, hget⟩ := List.getElem?_eq_some_iff.mp hchild
    rw [fireAt_of_lt children hlt, fireWhere_index children hlt, List.get_eq_getElem, hget]
    exact ⟨rfl, rfl⟩
  · intro index hindex
    rw [fireAt_of_le children (hlength ▸ hindex), hlength]

/-- Writes a parameter, and then the memory of the round. -/
def twoNamed : Definition := ⟨1, "OrderedActivator", .empty, [
  ⟨2, "SetParams", Bag.empty.insert "Values" (.obj (Bag.empty.insert "Level" (.ofNat 3))), []⟩,
  ⟨3, "StatelessMap", .empty, []⟩]⟩

/-- Two names in their own order call both children. In another order with an unknown name among
them, the children before that name are called. -/
theorem Definition.children_called_twoNamed :
    let children : List (Child Script) := Definition.children .builtin [] twoNamed.features
    ["set", "keep"].Nodup ∧ ["set", "keep"].length = twoNamed.features.length ∧
    fireNamed children ["set", "keep"] ["set", "keep"] = fireAll children ∧
    fireNamed children ["keep", "set", "other", "keep"] ["set", "keep"] = (do
      fireAll children.reverse
      throw (.config (.unresolvedName "other"))) := by
  obtain ⟨-, -, hcatalog, -, -, -, hnamed⟩ :=
    Definition.children_called (σ := Script) .builtin [] twoNamed
  refine ⟨by decide, rfl, hcatalog _ (by decide) rfl, ?_⟩
  exact hnamed ["set", "keep"] ["keep", "set", "other", "keep"]

end SlotOutcome
