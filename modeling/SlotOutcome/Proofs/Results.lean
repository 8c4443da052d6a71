import SlotOutcome.Proofs.Atoms

/-!
# Results of computations

A statement about every result of a computation that may fail is proved part by part: of a sequence
from its two parts, of a branch from its two ways. The values that a bag holds are results of
reading it, and they are as its types of parameters say.

## Main definitions

* `Results`, `Yields`: what holds of every result of a computation.

## Main results

* `Yields.bind`, `Yields.after`, `Yields.ite`: the results of sequences and branches.
* `Bag.require_yields`, `Bag.findD_yields`, `pickFrom_yields`: what a type of parameter says of its
  values holds of the values read.
-/

namespace SlotOutcome

/-- Computations that may fail, and their results. -/
class Results (ε : outParam Type) (m : Type → Type) [Monad m] [MonadExceptOf ε m] where
  Gives : {α : Type} → m α → α → Prop
  of_pure : ∀ {α : Type} {a b : α}, Gives (pure a : m α) b → a = b
  of_throw : ∀ {α : Type} {e : ε} {b : α}, ¬Gives (throw e : m α) b
  of_bind : ∀ {α β : Type} {x : m α} {f : α → m β} {b : β},
    Gives (x >>= f) b → ∃ a, Gives x a ∧ Gives (f a) b

instance {ε : Type} : Results ε (Except ε) where
  Gives x a := x = .ok a
  of_pure h := by
    cases h
    rfl
  of_throw h := by cases h
  of_bind {α β x f b} h := by
    rcases x with e | a
    · cases h
    · exact ⟨a, rfl, h⟩

instance {ε s : Type} : Results ε (ExceptT ε (StateM s)) where
  Gives m a := ∃ x y, m x = (.ok a, y)
  of_pure h := by
    obtain ⟨x, y, h⟩ := h
    cases h
    rfl
  of_throw h := by
    obtain ⟨x, y, h⟩ := h
    cases h
  of_bind h := by
    obtain ⟨x, z, h⟩ := h
    obtain ⟨a, y, ha, hb⟩ := bind_run_eq_ok.mp h
    exact ⟨a, ⟨x, y, ha⟩, y, z, hb⟩

instance : Results Unit Option where
  Gives x a := x = some a
  of_pure h := by
    cases h
    rfl
  of_throw h := by cases h
  of_bind {α β x f b} h := by
    rcases x with _ | a
    · cases h
    · exact ⟨a, rfl, h⟩

section Yields

variable {ε : Type} {m : Type → Type} [Monad m] [MonadExceptOf ε m] [Results ε m] {α β : Type}

/-- Every result of a computation has a property. -/
def Yields (Q : α → Prop) (x : m α) : Prop := ∀ a, Results.Gives x a → Q a

variable {P : α → Prop} {Q : β → Prop}

theorem Yields.pure {a : α} (h : P a) : Yields P (pure a : m α) := by
  intro b hb
  rwa [← Results.of_pure hb]

theorem Yields.throw (e : ε) : Yields P (throw e : m α) := fun _ hb => (Results.of_throw hb).elim

theorem Yields.bind {x : m α} {f : α → m β} (hx : Yields P x) (hf : ∀ a, P a → Yields Q (f a)) :
    Yields Q (x >>= f) := by
  intro b hb
  obtain ⟨a, ha, hb⟩ := Results.of_bind hb
  exact hf a (hx a ha) b hb

/-- What a computation does first may not matter. -/
theorem Yields.after {x : m α} {f : α → m β} (hf : ∀ a, Yields Q (f a)) : Yields Q (x >>= f) :=
  .bind (P := fun _ => True) (fun _ _ => trivial) fun a _ => hf a

theorem Yields.ite {c : Prop} [Decidable c] {x y : m α} (hx : Yields P x) (hy : Yields P y) :
    Yields P (if c then x else y) := by
  split
  · exact hx
  · exact hy

/-- After a check that failed there are no results. -/
theorem Yields.guarded {c : Prop} [Decidable c] {e : ε} {x : m α} (hx : ¬c → Yields P x) :
    Yields P (if c then (MonadExcept.throw e : m PUnit) >>= fun _ => x else x) := by
  split
  · next hc => exact .bind (.throw (P := fun _ => False) e) fun _ h => h.elim
  · next hc => exact hx hc

/-- The results for the items of a list, item by item. -/
theorem Yields.mapM [LawfulMonad m] (f : α → m β) (items : List α) :
    Yields (fun results => List.Forall₂ (fun item b => Results.Gives (f item) b) items results)
      (items.mapM f) := by
  induction items with
  | nil => exact .pure .nil
  | cons item items ih =>
    rw [List.mapM_cons]
    refine .bind (fun _ hb => hb) fun b hb => .bind ih fun results hresults => .pure ?_
    exact .cons hb hresults

theorem Results.exists_of_mapM [LawfulMonad m] {f : α → m β} {items : List α} {results : List β}
    (h : Results.Gives (items.mapM f) results) {a : α} (ha : a ∈ items) :
    ∃ b, Results.Gives (f a) b := by
  have hitems := Yields.mapM f items results h
  clear h
  induction hitems with
  | nil => cases ha
  | cons hb _ ih =>
    rcases List.mem_cons.mp ha with rfl | ha
    · exact ⟨_, hb⟩
    · exact ih ha

/-- What holds of the result for any item holds of all of them. -/
theorem Yields.mapM_all [LawfulMonad m] {Q : β → Prop} {f : α → m β} (h : ∀ a, Yields Q (f a))
    (items : List α) : Yields (fun results => ∀ b ∈ results, Q b) (items.mapM f) := by
  intro results hresults
  have hitems := Yields.mapM f items results hresults
  clear hresults
  induction hitems with
  | nil => exact fun _ hb => nomatch hb
  | cons hb _ ih => exact List.forall_mem_cons.mpr ⟨h _ _ hb, ih⟩

/-- What holds after the item has been dealt with holds of all items at the end. -/
theorem Yields.forM_all {Q : α → Prop} {f : α → m PUnit} (h : ∀ a, Yields (fun _ => Q a) (f a))
    (items : List α) : Yields (fun _ => ∀ a ∈ items, Q a) (items.forM f) := by
  induction items with
  | nil => exact .pure fun _ ha => nomatch ha
  | cons a items ih =>
    exact .bind (h a) fun _ ha => fun u hu => List.forall_mem_cons.mpr ⟨ha, ih u hu⟩

end Yields

/-- Computations that give a function of their items. -/
theorem mapM_eq_pure_map {m : Type → Type} [Monad m] [LawfulMonad m] {α β : Type} {f : α → m β}
    {g : α → β} {items : List α} (h : ∀ a ∈ items, f a = pure (g a)) :
    items.mapM f = pure (items.map g) := by
  induction items with
  | nil => exact List.mapM_nil
  | cons a items ih =>
    obtain ⟨ha, hitems⟩ := List.forall_mem_cons.mp h
    rw [List.mapM_cons, ha, ih hitems, pure_bind, pure_bind, List.map_cons]

theorem Yields.lift_data {α : Type} {P : α → Prop} {x : Except DataError α} (h : Yields P x) :
    Yields P (liftM x : Except FeatureError α) := by
  intro a ha
  rcases x with e | b
  · cases ha
  · exact h a (congrArg Except.ok (Except.ok.inj ha))

theorem Yields.lift_plan {σ α : Type} {P : α → Prop} {x : Except FeatureError α} (h : Yields P x) :
    Yields P (liftM x : PlanM σ α) := by
  rintro a ⟨y, z, ha⟩
  rw [liftM_run] at ha
  exact h a (congrArg Prod.fst ha)

theorem Yields.lift_param {α : Type} {P : α → Prop} {x : Except ParamError α} (h : Yields P x) :
    Yields P (liftM x : Except FeatureError α) := by
  intro a ha
  rcases x with e | b
  · cases ha
  · exact h a (congrArg Except.ok (Except.ok.inj ha))

/-- A sequence succeeds exactly when both of its parts do. -/
theorem bind_eq_ok {ε α β : Type} {x : Except ε α} {f : α → Except ε β} {b : β} :
    x >>= f = .ok b ↔ ∃ a, x = .ok a ∧ f a = .ok b := by
  constructor
  · intro h
    rcases x with e | a
    · cases h
    · exact ⟨a, rfl, h⟩
  · rintro ⟨a, rfl, h⟩
    exact h

/-- The results for the items of a list are those of its items. -/
theorem mem_of_mapM_eq_ok {ε α β : Type} {f : α → Except ε β} {items : List α} {results : List β}
    (h : items.mapM f = .ok results) {b : β} : b ∈ results ↔ ∃ a ∈ items, f a = .ok b := by
  have hitems := Yields.mapM f items results h
  clear h
  induction hitems with
  | nil => simp
  | @cons a b' items results hb' _ ih =>
    have hhead : f a = .ok b ↔ b = b' := by
      rw [show f a = .ok b' from hb', Except.ok.injEq, eq_comm]
    simp only [List.mem_cons, exists_eq_or_imp, hhead, ih]

/-- Where there are results for a whole list there is one for each item. -/
theorem exists_of_mapM_eq_ok {ε α β : Type} {f : α → Except ε β} {items : List α}
    {results : List β} (h : items.mapM f = .ok results) {a : α} (ha : a ∈ items) :
    ∃ b, f a = .ok b := Results.exists_of_mapM (m := Except ε) h ha

/-- Where there are no results for a list, one of its items is why. -/
theorem exists_of_mapM_eq_error {ε α β : Type} {f : α → Except ε β} {items : List α} {e : ε}
    (h : items.mapM f = .error e) : ∃ a ∈ items, f a = .error e := by
  induction items with
  | nil => cases h
  | cons a items ih =>
    rcases ha : f a with e' | b
    · rw [List.mapM_cons, ha] at h
      cases h
      exact ⟨a, List.mem_cons_self, ha⟩
    · rcases hitems : items.mapM f with e' | results
      · rw [List.mapM_cons, ha, hitems] at h
        cases h
        obtain ⟨a', ha', herror⟩ := ih hitems
        exact ⟨a', List.mem_cons_of_mem _ ha', herror⟩
      · rw [List.mapM_cons, ha, hitems] at h
        cases h

/-- Dealing with a list succeeds exactly when dealing with each item does. -/
theorem forM_eq_ok {ε α : Type} {f : α → Except ε Unit} {items : List α} :
    items.forM f = .ok () ↔ ∀ a ∈ items, f a = .ok () := by
  induction items with
  | nil => exact iff_of_true rfl fun _ ha => nomatch ha
  | cons a items ih =>
    rw [List.forall_mem_cons, ← ih]
    refine bind_eq_ok.trans ?_
    exact ⟨fun ⟨_, ha, hrest⟩ => ⟨ha, hrest⟩, fun ⟨ha, hrest⟩ => ⟨_, ha, hrest⟩⟩

/-- A computation yields what it yields. -/
theorem yields_eq {ε α : Type} (x : Except ε α) : Yields (fun a => x = .ok a) x := fun _ h => h

/-! ### Reading a bag -/

section Reads

variable {α : Type} {type : ParamType α} {P : α → Prop} (bag : Bag) (key : String)

/-- Every value of a type of parameter has a property. -/
def ParamType.Ensures (type : ParamType α) (P : α → Prop) : Prop :=
  ∀ value a, type.read value = some a → P a

variable {bag key}

theorem Bag.find_yields (h : type.Ensures P) :
    Yields (fun found => ∀ a ∈ found, P a) (bag.find type key) := by
  intro found hfound a ha
  have hfound : bag.find type key = .ok found := hfound
  unfold find at hfound
  split at hfound
  · cases hfound
    cases ha
  · split at hfound
    · next hread =>
      cases hfound
      cases ha
      exact h _ _ hread
    · cases hfound

theorem Bag.require_yields (h : type.Ensures P) : Yields P (bag.require type key) := by
  refine .bind (find_yields h) fun found hfound => ?_
  rcases found with _ | a
  · exact .throw _
  · exact .pure (hfound a rfl)

theorem Bag.findD_yields {default : α} (h : type.Ensures P) (hdefault : P default) :
    Yields P (bag.findD type key default) := by
  refine .bind (find_yields h) fun found hfound => .pure ?_
  rcases found with _ | a
  · exact hdefault
  · exact hfound a rfl

/-- What holds of a single value and of the values of a list holds of the one that is picked. -/
theorem pickFrom_yields {σ : Type} [RandomSource σ] {listType : ParamType (List α)}
    {single several weights : String} (h : type.Ensures P)
    (hlist : listType.Ensures fun values => ∀ a ∈ values, P a) :
    Yields P (pickFrom bag type listType single several weights : PlanM σ α) := by
  refine .bind (.lift_plan (.lift_param (Bag.find_yields hlist))) fun found hfound => ?_
  rcases found with _ | values
  · exact .lift_plan (.lift_param (Bag.require_yields h))
  · refine .after fun weights => .after fun i => .pure ?_
    exact hfound values rfl _ (List.get_mem values i)

end Reads

/-- What holds of the values of a type holds of the items of a list of that type. -/
theorem ParamType.Ensures.list {α : Type} {item : Json → Option α} {name : String} {P : α → Prop}
    (h : ∀ value a, item value = some a → P a) :
    (⟨name, Json.toList? item⟩ : ParamType (List α)).Ensures fun values => ∀ a ∈ values, P a := by
  intro value values hread
  change Json.toList? item value = some values at hread
  unfold Json.toList? at hread
  split at hread
  · next items =>
    have hall : Yields (fun values => ∀ a ∈ values, P a) (items.mapM item) := .mapM_all h items
    exact hall values hread
  · cases hread

/-- Integers that are read fit 64 bits with a sign. -/
theorem ParamType.int_ensures :
    int.Ensures fun i => -0x8000000000000000 ≤ i ∧ i < 0x8000000000000000 := by
  intro value i hread
  rcases value with _ | _ | ⟨n, hn⟩ | _ | _ | _ <;> try cases hread
  change (some n).filter (· < 0x8000000000000000) = some i at hread
  obtain ⟨hsome, hlt⟩ := Option.filter_eq_some_iff.mp hread
  cases hsome
  exact ⟨hn.1, of_decide_eq_true hlt⟩

/-! ### Reading back what was written -/

theorem Json.toNat?_ofNat {n : Nat} (h : n < UInt64.size) : (Json.ofNat n).toNat? = some n := by
  have hsize : UInt64.size = 0x10000000000000000 := rfl
  have hbounds : -0x8000000000000000 ≤ (n : Int) ∧ (n : Int) < 0x10000000000000000 := by omega
  simp [Json.ofNat, Json.toNat?, Number.ofInt, Number.toInt?, hbounds, Option.filter]

theorem Json.toInt?_ofInt {i : Int} (h : -0x8000000000000000 ≤ i ∧ i < 0x8000000000000000) :
    (Json.ofInt i).toInt? = some i := by
  have hbounds : -0x8000000000000000 ≤ i ∧ i < 0x10000000000000000 := by omega
  simp [Json.ofInt, Json.toInt?, Number.ofInt, Number.toInt?, hbounds, Option.filter, h.2]

namespace ParamType

theorem int_read_ofInt {i : Int} (h : -0x8000000000000000 ≤ i ∧ i < 0x8000000000000000) :
    int.read (.ofInt i) = some i := Json.toInt?_ofInt h

theorem nat_read_ofNat {n : Nat} (h : n < UInt64.size) : nat.read (.ofNat n) = some n := by
  simp only [nat, Json.toNat?_ofNat h]

/-- A double that is finite can be read back; any other is lost. -/
theorem float_read_ofFloat (x : Float) :
    float.read (.ofFloat x) = if x.isFinite then some x else none := by
  by_cases h : x.isFinite = true
  · rw [if_pos h, Json.ofFloat, FiniteFloat.ofFloat?, dif_pos h]
    rfl
  · rw [if_neg h, Json.ofFloat, FiniteFloat.ofFloat?, dif_neg h]
    rfl

theorem positions_read_ofNats {ns : List Nat} (h : ∀ n ∈ ns, n < UInt64.size) :
    positions.read (.ofNats ns) = some ns := by
  change (ns.map Json.ofNat).mapM Json.toNat? = some ns
  induction ns with
  | nil => rfl
  | cons n ns ih =>
    have hrest := ih fun m hm => h m (List.mem_cons_of_mem _ hm)
    rw [List.map_cons, List.mapM_cons, Json.toNat?_ofNat (h n List.mem_cons_self), hrest]
    rfl

theorem symbol_read_ofInt (id : Symbol) : symbol.read (.ofInt id.toInt) = some id := by
  have hlow : -2147483648 ≤ id.toInt := Int32.le_toInt id
  have hhigh : id.toInt < 2147483648 := Int32.toInt_lt id
  have hint : (Json.ofInt id.toInt).toInt? = some id.toInt := Json.toInt?_ofInt (by omega)
  have hsymbol : Symbol.ofInt? id.toInt = some id := by
    have hid : -0x80000000 ≤ id.toInt ∧ id.toInt < 0x80000000 := ⟨hlow, hhigh⟩
    rw [Symbol.ofInt?, if_pos hid, Int32.ofInt_toInt]
  change (Json.ofInt id.toInt).toInt?.bind Symbol.ofInt? = some id
  rw [hint, Option.bind_some, hsymbol]

end ParamType

end SlotOutcome
