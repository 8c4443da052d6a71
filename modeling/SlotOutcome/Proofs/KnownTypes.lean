import SlotOutcome.Proofs.NamedFailures

/-!
# Checking the types of a tree before it is played

A registry checks the tags of a tree before it is played. The check is exact: a pass over a tree
that passes it never fails because a tag names no type, and a tree that does not pass it has nodes
that cannot be triggered, for each of the tags that the check reports.

## Main results

* `Registry.unknownTags_ordered`: unknown tags are listed once, in the order of their first nodes.
* `Definition.trigger_unknown`: a node whose tag names no type does nothing but fail.
* `Registry.validate_exact`: the check before the game is sound and exact.
-/

namespace SlotOutcome

/-! ### First occurrences in a list -/

/-- Leaving out other items does not change which of two items comes first. -/
theorem idxOf_lt_of_idxOf_filter_lt {α : Type} [BEq α] [LawfulBEq α] {keep : α → Bool}
    {items : List α} {a b : α} (ha : keep a = true) (hb : keep b = true)
    (h : (items.filter keep).idxOf a < (items.filter keep).idxOf b) :
    items.idxOf a < items.idxOf b := by
  induction items with
  | nil => simp at h
  | cons x items ih =>
    by_cases hxa : x = a
    · subst hxa
      have hne : x ≠ b := by
        rintro rfl
        exact absurd h (Nat.lt_irrefl _)
      simp [hne]
    by_cases hxb : x = b
    · subst hxb
      simp [hb] at h
    by_cases hx : keep x = true
    · rw [List.filter_cons_of_pos hx] at h
      simp only [List.idxOf_cons_ne _ hxa, List.idxOf_cons_ne _ hxb] at h ⊢
      exact Nat.succ_lt_succ (ih (Nat.lt_of_succ_lt_succ h))
    · rw [List.filter_cons_of_neg hx] at h
      rw [List.idxOf_cons_ne _ hxa, List.idxOf_cons_ne _ hxb]
      exact Nat.succ_lt_succ (ih h)

/-- A list without repetitions keeps the order in which items come first. -/
theorem pairwise_idxOf_eraseDups {α : Type} [BEq α] [LawfulBEq α] : (items : List α) →
    items.eraseDups.Pairwise fun a b => items.idxOf a < items.idxOf b
  | [] => List.Pairwise.nil
  | x :: items => by
    have hrest := pairwise_idxOf_eraseDups (items.filter fun b => !b == x)
    have hkept {b : α} (hb : b ∈ (items.filter fun b => !b == x).eraseDups) : (!b == x) = true :=
      (List.mem_filter.mp (List.mem_eraseDups.mp hb)).2
    have hne {b : α} (hb : (!b == x) = true) : x ≠ b := by
      rintro rfl
      simp at hb
    rw [List.eraseDups_cons, List.pairwise_cons]
    refine ⟨fun b hb => ?_, hrest.imp_of_mem fun ha hb hlt => ?_⟩
    · rw [List.idxOf_cons_self, List.idxOf_cons_ne _ (hne (hkept hb))]
      exact Nat.succ_pos _
    · rw [List.idxOf_cons_ne _ (hne (hkept ha)), List.idxOf_cons_ne _ (hne (hkept hb))]
      exact Nat.succ_lt_succ (idxOf_lt_of_idxOf_filter_lt (hkept ha) (hkept hb) hlt)
termination_by items => items.length
decreasing_by exact Nat.lt_succ_of_le (List.length_filter_le _ _)

namespace Registry

variable (r : Registry) (d : Definition)

theorem create_eq_error {tag : String} {error : ConfigError} :
    r.create tag = .error error ↔ r.contains tag = false ∧ error = .unknownType tag := by
  unfold create contains
  rcases r.find? tag with _ | e
  · simp [eq_comm]
  · simp

theorem mem_unknownTags {tag : String} :
    tag ∈ r.unknownTags d ↔ (∃ n ∈ d.nodes, n.tag = tag) ∧ r.contains tag = false := by
  simp [unknownTags, Definition.tags]

/-- Unknown tags are listed in the order of their first nodes. -/
theorem unknownTags_ordered : (r.unknownTags d).Pairwise fun a b =>
    (d.nodes.map Definition.tag).idxOf a < (d.nodes.map Definition.tag).idxOf b :=
  (pairwise_idxOf_eraseDups (d.nodes.map Definition.tag)).filter _

end Registry

namespace Definition

variable {σ : Type} {registry : Registry}

/-- A node whose tag names no type fails, and does nothing else. -/
theorem trigger_unknown [RandomSource σ] {d : Definition} (h : registry.contains d.tag = false)
    (above : List Definition) (p : Pass σ) :
    d.trigger registry above p =
      (.error (.inFeature d.tag d.id (.config (.unknownType d.tag))), p) := by
  rw [trigger_eq, enter_run_unknown ((registry.create_eq_error).mpr ⟨h, rfl⟩)]
  rfl

/-- If a pass fails because a tag names no type, it is the tag of a node that names none. -/
theorem unknown_of_trigger [RandomSource σ] {d : Definition} {above : List Definition}
    {p q : Pass σ} {e : FeatureError} {tag : String}
    (h : d.trigger registry above p = (.error e, q))
    (he : e.root = .config (.unknownType tag)) : tag ∈ registry.unknownTags d := by
  obtain ⟨x, culprit, -, rfl, hblamed, cause, rfl, hcause⟩ := trigger_blamed h
  rcases hcause with hcause | ⟨error, hcreate, rfl⟩
  · have hroot : cause.root = cause := FeatureError.root_of_feature?_eq hcause.feature?_eq
    exact absurd (hroot.symm.trans he) (hcause.ne_unknownType tag)
  · obtain ⟨hcontains, rfl⟩ := registry.create_eq_error.mp hcreate
    obtain rfl : culprit.node.tag = tag :=
      ConfigError.unknownType.inj (FeatureError.config.inj he)
    exact (registry.mem_unknownTags _).mpr ⟨⟨_, hblamed.mem_nodes, rfl⟩, hcontains⟩

end Definition

/-- The check before the game is sound and exact. Let `missing` be the tags of a tree that name no
type, each once, in the order of their first nodes. The check succeeds if there are none. Then no
pass over the tree fails because of an unknown type. Otherwise the check reports all of them, and
every node with one of these tags fails because of its tag and does nothing else: it draws nothing
and leaves the state and the bag.

A registry maps tags, which may be any, to the types of features of this library; it holds no types
that are defined elsewhere. -/
theorem Registry.validate_exact (r : Registry) (d : Definition) :
    ∃ missing : List String,
      (∀ tag, tag ∈ missing ↔ (∃ n ∈ d.nodes, n.tag = tag) ∧ r.contains tag = false) ∧
      missing.Pairwise (fun a b =>
        (d.nodes.map Definition.tag).idxOf a < (d.nodes.map Definition.tag).idxOf b) ∧
      (r.validate d = .ok () ↔ missing = []) ∧
      (∀ tag, missing = [tag] → r.validate d = .error (.unknownType tag)) ∧
      (1 < missing.length →
        r.validate d = .error (.invalid ("unknown feature types: " ++ ", ".intercalate missing))) ∧
      (r.validate d = .ok () → ∀ (σ : Type) [RandomSource σ] (above : List Definition)
        (p q : Pass σ) (e : FeatureError), d.trigger r above p = (.error e, q) →
          ∀ tag, e.root ≠ .config (.unknownType tag)) ∧
      ∀ n ∈ d.nodes, n.tag ∈ missing → ∀ (σ : Type) [RandomSource σ] (above : List Definition)
        (p : Pass σ), n.trigger r above p =
          (.error (.inFeature n.tag n.id (.config (.unknownType n.tag))), p) := by
  have hok : r.validate d = .ok () ↔ r.unknownTags d = [] := by
    unfold validate
    rcases r.unknownTags d with _ | ⟨tag, _ | ⟨tag', rest⟩⟩ <;> simp
  refine ⟨r.unknownTags d, fun tag => r.mem_unknownTags d, r.unknownTags_ordered d, hok,
    fun tag hone => ?_, fun hmore => ?_, fun hvalid σ _ above p q e hrun tag he => ?_,
    fun n hn hmissing σ _ above p => ?_⟩
  · rw [validate, hone]
  · unfold validate
    rcases hmissing : r.unknownTags d with _ | ⟨tag, _ | ⟨tag', rest⟩⟩
    · simp [hmissing] at hmore
    · simp [hmissing] at hmore
    · rfl
  · have hmem := Definition.unknown_of_trigger hrun he
    rw [hok.mp hvalid] at hmem
    cases hmem
  · exact Definition.trigger_unknown ((r.mem_unknownTags d).mp hmissing).2 above p

example : Registry.builtin.validate ⟨1, "Activator", .empty,
    [.leaf 2 "Wheel", ⟨3, "Play", .empty, [.leaf 4 "Ladder", .leaf 5 "Wheel"]⟩]⟩ =
      .error (.invalid "unknown feature types: Wheel, Ladder") := by decide +kernel

end SlotOutcome
