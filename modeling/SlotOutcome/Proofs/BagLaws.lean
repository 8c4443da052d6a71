import Mathlib.Tactic.Common
import SlotOutcome.Bag

/-!
# Bags as finite maps

A bag is determined by the values of its keys, and every operation on bags is described by what
it does to them. Writing a key changes that key only, and in an overlay the caller's value of a
key counts before the default. Read from the other side, the overlay is the caller's bag with the
defaults added that it lacks (`Bag.overlay_eq_addMissing`).

## Main definitions

* `Bag.addMissing`: a bag with those members of another one whose keys it lacks.
* `Bag.Collates`: the bags of called features are written back.

## Main results

* `Members.induction`: induction over the members of an object.
* `Members.get?_insert`, `Members.get?_ofList`, `Members.get?_filter`, `Members.ext_get?`.
* `Bag.get?_extend`, `Bag.get?_overlay`, `Bag.overlay_eq_addMissing`.
-/

namespace SlotOutcome

namespace Members

/-- What holds without members and with one more member before others holds of all members. -/
@[elab_as_elim]
theorem induction {motive : {above : Option String} → Members above → Prop}
    (nil : ∀ {above}, motive (nil : Members above))
    (cons : ∀ {above} key value (hkey : Above above key) (rest : Members (some key)),
      motive rest → motive (cons key value hkey rest)) :
    {above : Option String} → (m : Members above) → motive m
  | _, .nil => nil
  | _, .cons key value hkey rest => cons key value hkey rest (induction nil cons rest)

/-- No member stands under the bound that all keys come after, nor under an earlier key. -/
theorem get?_eq_none_of_not_lt {bound key : String} (h : ¬ bound < key) :
    (m : Members (some bound)) → m.get? key = none
  | nil => rfl
  | cons k v hk rest => by
    have hbk : bound < k := hk
    have hne : key ≠ k := by
      rintro rfl
      exact h hbk
    have hrest : ¬ k < key := fun hlt => h (String.lt_trans hbk hlt)
    rw [get?, if_neg hne]
    exact get?_eq_none_of_not_lt hrest rest

/-- The key of the first member is not among the others. -/
theorem get?_self {key : String} (m : Members (some key)) : m.get? key = none :=
  get?_eq_none_of_not_lt (String.lt_irrefl key) m

@[simp] theorem get?_nil {above : Option String} (key : String) :
    (nil : Members above).get? key = none := rfl

@[simp] theorem get?_lower {above : Option String} {bound : String} (h : Above above bound)
    (m : Members (some bound)) (key : String) : (m.lower h).get? key = m.get? key := by
  cases m <;> rfl

/-- Writing a key changes the value of that key only. -/
theorem get?_insertAbove (key : String) (value : Json) (q : String) :
    {above : Option String} → (m : Members above) → (h : Above above key) →
      (m.insertAbove key value h).get? q = if q = key then some value else m.get? q
  | _, nil, _ => rfl
  | _, cons k v hk rest, h => by
    by_cases heq : key = k
    · subst heq
      by_cases hq : q = key <;> simp [insertAbove, get?, hq]
    · by_cases hlt : key < k
      · simp only [insertAbove, heq, hlt, ↓reduceIte, ↓reduceDIte, get?]
      · have hgt : k < key := by
          by_contra hgt
          exact heq (String.le_antisymm (String.not_lt.mp hgt) (String.not_lt.mp hlt))
        have ih := get?_insertAbove key value q rest hgt
        simp only [insertAbove, heq, hlt, hgt, ↓reduceIte, ↓reduceDIte, get?, ih]
        by_cases hq : q = k
        · simp only [hq, Ne.symm heq, ↓reduceIte]
        · simp only [hq, ↓reduceIte]

/-- Writing a key changes the value of that key only. -/
@[simp] theorem get?_insert (m : Members none) (key : String) (value : Json) (q : String) :
    (m.insert key value).get? q = if q = key then some value else m.get? q :=
  get?_insertAbove key value q m trivial

/-- The last value of a name among fields is that of the record. -/
theorem get?_ofList (fields : List (String × Json)) (name : String) :
    (ofList fields).get? name = fields.reverse.lookup name := by
  have hfoldr (fields : List (String × Json)) :
      (fields.foldr (fun field m => m.insert field.1 field.2) nil : Members none).get? name =
        fields.lookup name := by
    induction fields with
    | nil => rfl
    | cons field fields ih =>
      rw [List.foldr_cons, get?_insert, ih, List.lookup_cons]
      by_cases hname : name = field.1
      · simp [hname]
      · rw [if_neg hname, beq_eq_false_iff_ne.mpr hname]
  rw [ofList, ← hfoldr, List.foldr_reverse]

/-- The members that a predicate keeps, key by key. -/
@[simp] theorem get?_filter (p : String → Bool) (q : String) :
    {above : Option String} → (m : Members above) →
      (m.filter p).get? q = if p q then m.get? q else none
  | _, nil => by simp only [filter, get?_nil, ite_self]
  | _, cons k v hk rest => by
    have ih := get?_filter p q rest
    by_cases hq : q = k
    · subst hq
      cases hp : p q <;> simp [filter, get?, hp, ih]
    · cases hp : p k <;> simp [filter, get?, hp, hq, ih]

theorem get?_of_mem {key : String} {value : Json} {above : Option String} (m : Members above)
    (h : (key, value) ∈ m.toList) : m.get? key = some value := by
  induction m using Members.induction with
  | nil => cases h
  | cons k v hk rest ih =>
    rcases List.mem_cons.mp h with heq | hmem
    · cases heq
      rw [get?, if_pos rfl]
    · have hrest := ih hmem
      have hne : key ≠ k := by
        rintro rfl
        rw [get?_self] at hrest
        cases hrest
      rw [get?, if_neg hne, hrest]

/-- Members are determined by the values of their keys. -/
theorem ext_get? :
    {above : Option String} → (m m' : Members above) → (∀ key, m.get? key = m'.get? key) → m = m'
  | _, nil, nil, _ => rfl
  | _, nil, cons k v _ rest, h => by simpa [get?] using h k
  | _, cons k v _ rest, nil, h => by simpa [get?] using h k
  | _, cons k v hk rest, cons k' v' hk' rest', h => by
    -- The smaller of two different first keys would be missing on the other side.
    have hkk : k = k' := by
      by_contra hne
      have hk1 := h k
      have hk2 := h k'
      simp only [get?, ↓reduceIte, hne, Ne.symm hne] at hk1 hk2
      have h1 : k' < k := by
        by_contra hlt
        rw [get?_eq_none_of_not_lt hlt] at hk1
        cases hk1
      have h2 : ¬ k < k' := String.lt_asymm h1
      rw [get?_eq_none_of_not_lt h2] at hk2
      cases hk2
    subst hkk
    have hv : v = v' := by simpa [get?] using h k
    subst hv
    have hrest : rest = rest' := by
      refine ext_get? rest rest' fun key => ?_
      by_cases hkey : key = k
      · rw [hkey, get?_self, get?_self]
      · simpa only [get?, if_neg hkey] using h key
    rw [hrest]

theorem isEmpty_iff (m : Members none) : m.isEmpty = true ↔ m = nil := by
  cases m <;> simp [isEmpty]

theorem isEmpty_insert (members : Members none) (key : String) (value : Json) :
    (members.insert key value).isEmpty = false := by
  refine Bool.eq_false_iff.mpr fun hempty => ?_
  have hget := members.get?_insert key value key
  rw [(isEmpty_iff _).mp hempty, if_pos rfl] at hget
  cases hget

end Members

namespace Bag

/-- Copying a list of members into a bag: the members of the list count before those of the bag. -/
private theorem get?_foldl_insert (q : String) :
    {above : Option String} → (other : Members above) → (bag : Bag) →
      (other.toList.foldl (fun (b : Bag) field => b.insert field.1 field.2) bag).get? q =
        (other.get? q).or (bag.get? q)
  | _, .nil, _ => rfl
  | _, .cons k v _ rest, bag => by
    rw [Members.toList, List.foldl_cons, get?_foldl_insert q rest, Members.get?_insert,
      Members.get?]
    by_cases hq : q = k
    · subst hq
      simp only [↓reduceIte, Members.get?_self, Option.none_or, Option.some_or]
    · simp only [hq, ↓reduceIte]

@[simp] theorem get?_extend (bag other : Bag) (key : String) :
    (bag.extend other).get? key = (other.get? key).or (bag.get? key) :=
  get?_foldl_insert key other bag

/-- In an overlay the caller's value of a key counts before the default. -/
@[simp] theorem get?_overlay (defaults caller : Bag) (key : String) :
    (Bag.overlay defaults caller).get? key = (caller.get? key).or (defaults.get? key) :=
  get?_extend defaults caller key

/-- The bag with those members of another one whose keys it lacks. -/
def addMissing (bag defaults : Bag) : Bag :=
  defaults.toList.foldl (fun b field => if b.contains field.1 then b else b.insert field.1 field.2)
    bag

private theorem get?_foldl_missing (q : String) :
    {above : Option String} → (defaults : Members above) → (bag : Bag) →
      (defaults.toList.foldl (fun (b : Bag) field =>
        if b.contains field.1 then b else b.insert field.1 field.2) bag).get? q =
          (bag.get? q).or (defaults.get? q)
  | _, .nil, bag => by simp [Members.toList]
  | _, .cons k v _ rest, bag => by
    rw [Members.toList, List.foldl_cons, get?_foldl_missing q rest, Members.get?]
    cases hk : bag.get? k with
    | some value =>
      by_cases hq : q = k
      · subst hq
        simp [Members.contains, hk]
      · simp [Members.contains, hk, hq]
    | none =>
      by_cases hq : q = k
      · subst hq
        simp [Members.contains, hk]
      · simp [Members.contains, hk, hq]

theorem get?_addMissing (bag defaults : Bag) (key : String) :
    (bag.addMissing defaults).get? key = (bag.get? key).or (defaults.get? key) :=
  get?_foldl_missing key defaults bag

/-- Without defaults the overlay is the caller's bag. -/
theorem empty_overlay (caller : Bag) : Bag.overlay .empty caller = caller :=
  Members.ext_get? _ _ fun key => by rw [get?_overlay]; exact Option.or_none

/-- Laying the caller's bag over the defaults is adding to the caller's bag the defaults that it
lacks. -/
theorem overlay_eq_addMissing (defaults caller : Bag) :
    Bag.overlay defaults caller = caller.addMissing defaults :=
  Members.ext_get? _ _ fun key => by rw [get?_overlay, get?_addMissing]

/-- A caller with this bag takes over the bags of the features it calls. -/
def Collates (bag : Bag) : Prop := bag.get? Key.collate = some (.bool true)

/-- A caller with this bag keeps its bag whatever the features do that it calls. -/
def KeepsToItself (bag : Bag) : Prop :=
  bag.get? Key.collate = none ∨ bag.get? Key.collate = some (.bool false)

theorem Collates.overlay {caller : Bag} (h : caller.Collates) (defaults : Bag) :
    (defaults.overlay caller).Collates := by
  unfold Collates at h ⊢
  rw [get?_overlay, h]
  rfl

theorem isCollate_eq_true {bag : Bag} (h : bag.Collates) : bag.isCollate = .ok true := by
  unfold Collates at h
  simp [isCollate, findD, find, h, ParamType.bool, Json.toBool?, bind, Except.bind, pure,
    Except.pure]

theorem isCollate_eq_false {bag : Bag} (h : bag.KeepsToItself) : bag.isCollate = .ok false := by
  rcases h with h | h <;>
    simp [isCollate, findD, find, h, ParamType.bool, Json.toBool?, bind, Except.bind, pure,
      Except.pure]

/-! ### Typed reads -/

section Reads

variable {α : Type} {bag : Bag} {type : ParamType α} {key : String}

theorem find_of_present {value : Json} {a : α} (h : bag.get? key = some value)
    (hread : type.read value = some a) : bag.find type key = .ok (some a) := by
  simp only [find, h, hread]

theorem find_of_unreadable {value : Json} (h : bag.get? key = some value)
    (hread : type.read value = none) :
    bag.find type key = .error (.mismatch key type.name value.description) := by
  simp only [find, h, hread]

/-- What was read is there. -/
theorem present_of_find {a : α} (h : bag.find type key = .ok (some a)) :
    ∃ value, bag.get? key = some value ∧ type.read value = some a := by
  unfold find at h
  split at h
  · cases h
  · next value hvalue =>
    refine ⟨value, hvalue, ?_⟩
    split at h
    · next hread =>
      cases h
      exact hread
    · cases h

theorem present_of_require {a : α} (h : bag.require type key = .ok a) :
    ∃ value, bag.get? key = some value ∧ type.read value = some a := by
  rcases hfind : bag.find type key with e | _ | b <;> rw [require, hfind] at h <;> cases h
  exact present_of_find hfind

theorem require_of_present {value : Json} {a : α} (h : bag.get? key = some value)
    (hread : type.read value = some a) : bag.require type key = .ok a := by
  rw [require, find_of_present h hread]
  rfl

theorem findD_of_present {value : Json} {a : α} (h : bag.get? key = some value)
    (hread : type.read value = some a) (default : α) : bag.findD type key default = .ok a := by
  rw [findD, find_of_present h hread]
  rfl

end Reads

end Bag

end SlotOutcome
