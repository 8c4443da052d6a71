import SlotOutcome.Proofs.JsonTexts
import SlotOutcome.Proofs.Results
import SlotOutcome.Registry

/-!
# Ledgers read back

A ledger is written if every payload has the shape of its feature, and it is read back from its text
if the payloads, which stand two containers deep in it, do not nest too deep. A payload that is
read in another form than it was noted in would not be read back; a record whose fields have their
types is in the form that it is read in.

## Main definitions

* `Json.HasType`: a value is of the type of a field, in the form that it is read in.
* `Shape.Filled`: a payload fills a shape.
* `Registry.Stores`: an entry is read back from the text of a ledger.

## Main results

* `Shape.exists_recordOf`: what a record is read as.
* `Shape.Filled.ofTree?_toTree`: a payload that fills its shape is read back.
* `Entry.listOfBytes?_listText`: the entries of a ledger are read back from its text.
* `Registry.stores_iff`: which ledgers are written and read back.
-/

namespace SlotOutcome

/-! ### Objects -/

namespace Members

/-- The members of a tree with a name are those of the object, so there is at most one. -/
theorem filter_toFields (name : String) {above : Option String} (m : Members above) :
    m.toFields.toList.filter (fun member => member.1 == some name) =
      ((m.get? name).map fun value => (some name, value.toTree)).toList := by
  induction m using Members.induction with
  | nil => rfl
  | cons k v hk rest ih =>
    rw [toFields, Fields.toList, List.filter_cons, ih, get?]
    by_cases h : name = k
    · subst h
      simp [get?_self]
    · have hne : ¬(some k == some name) = true := by simpa using Ne.symm h
      rw [if_neg hne, if_neg h]

theorem only?_toFields (m : Members none) (name : String) :
    Fields.only? name m.toFields.toList = some ((m.get? name).map Json.toTree) := by
  rw [Fields.only?, m.filter_toFields name]
  rcases m.get? name with _ | value <;> rfl

theorem mem_toFields {member : Option String × Tree} {above : Option String} {m : Members above}
    (h : member ∈ m.toFields.toList) :
    ∃ key value, member = (some key, value.toTree) ∧ (key, value) ∈ m.toList := by
  induction m using Members.induction with
  | nil => cases h
  | cons k v hk rest ih =>
    rcases List.mem_cons.mp h with rfl | hmem
    · exact ⟨k, v, rfl, List.mem_cons_self⟩
    · obtain ⟨key, value, rfl, hvalue⟩ := ih hmem
      exact ⟨key, value, rfl, List.mem_cons_of_mem _ hvalue⟩

theorem mem_toList_of_get? {key : String} {value : Json} {above : Option String}
    (m : Members above) (h : m.get? key = some value) : (key, value) ∈ m.toList := by
  induction m using Members.induction with
  | nil => cases h
  | cons k v hk rest ih =>
    rw [get?] at h
    split_ifs at h with heq
    · cases h
      subst heq
      exact List.mem_cons_self
    · exact List.mem_cons_of_mem _ (ih h)

theorem mem_toFields_of_get? {key : String} {value : Json} (m : Members none)
    (h : m.get? key = some value) : (some key, value.toTree) ∈ m.toFields.toList := by
  have hmem : (some key, value.toTree) ∈
      m.toFields.toList.filter fun member => member.1 == some key := by
    rw [m.filter_toFields key, h]
    exact List.mem_singleton_self _
  exact List.mem_of_mem_filter hmem

theorem nesting_le_iff {n : ℕ} {above : Option String} (m : Members above) :
    m.nesting ≤ n ↔ ∀ member ∈ m.toList, member.2.nesting ≤ n := by
  induction m using Members.induction with
  | nil => simp [nesting, toList]
  | cons k v hk rest ih => rw [nesting, toList, sup_le_iff, ih, List.forall_mem_cons]

end Members

/-- The fields of an object whose keys are all named. -/
theorem Members.fields?_toTree {m : Members none} {names : List String}
    (h : ∀ member ∈ m.toList, member.1 ∈ names) :
    (Json.obj m).toTree.fields? true names =
      some (names.map fun name => (m.get? name).map Json.toTree) := by
  have hall : (m.toFields.toList.all fun member =>
      member.1.any fun key => !true || names.contains key) = true := by
    rw [List.all_eq_true]
    intro member hmember
    obtain ⟨key, value, rfl, hvalue⟩ := mem_toFields hmember
    simpa using h _ hvalue
  rw [Json.toTree, Tree.fields?]
  simp only [hall, if_true]
  exact mapM_eq_pure_map fun name _ => m.only?_toFields name

/-! ### Fields -/

/-- A value is of the type of a field, in the form that it is read in. -/
def Json.HasType (j : Json) (type : FieldType) : Prop :=
  ∀ depth, type.ofTree? (depth + 1) j.toTree = some j

theorem Number.ofInt_of_bounds {i : ℤ} (h : -0x8000000000000000 ≤ i ∧ i < 0x10000000000000000) :
    Number.ofInt i = .int i h := dif_pos h

/-- A natural number beyond 64 bits is taken modulo `2 ^ 64`. -/
theorem Number.ofInt_mod (n : ℕ) :
    Number.ofInt n = Number.ofInt (n % 0x10000000000000000 : ℕ) := by
  by_cases h : n < 0x10000000000000000
  · rw [Nat.mod_eq_of_lt h]
  · have hbig : ¬(-0x8000000000000000 ≤ (n : ℤ) ∧ (n : ℤ) < 0x10000000000000000) := by omega
    have hsmall : -0x8000000000000000 ≤ ((n % 0x10000000000000000 : ℕ) : ℤ) ∧
        ((n % 0x10000000000000000 : ℕ) : ℤ) < 0x10000000000000000 := by omega
    rw [Number.ofInt, dif_neg hbig, Number.ofInt, dif_pos hsmall]
    congr 1

theorem Tree.toNatBelow?_ofNat {n bound : ℕ} (hn : n < bound)
    (hbound : bound ≤ 0x10000000000000000) : (Tree.ofNat n).toNatBelow? bound = some n := by
  have hsmall : -0x8000000000000000 ≤ (n : ℤ) ∧ (n : ℤ) < 0x10000000000000000 := by omega
  have hfits : 0 ≤ (n : ℤ) ∧ (n : ℤ) < bound := by omega
  rw [Tree.ofNat, Tree.toNatBelow?, Tree.toInt?, Tree.toNumber?, Number.ofInt_of_bounds hsmall]
  simp [Number.toInt?, Option.filter, hfits]

theorem Tree.toUInt32?_ofNat (n : UInt32) : (Tree.ofNat n.toNat).toUInt32? = some n := by
  rw [Tree.toUInt32?, Tree.toNatBelow?_ofNat n.toNat_lt (by norm_num), Option.map_some,
    UInt32.ofNat_toNat]

theorem Tree.toInt?_ofInt {i : ℤ} (h : -0x8000000000000000 ≤ i ∧ i < 0x10000000000000000) :
    (Tree.ofInt i).toInt? = some i := by
  rw [Tree.ofInt, Tree.toInt?, Tree.toNumber?, Number.ofInt_of_bounds h]
  rfl

namespace Json

theorem toTree_ofNat (n : ℕ) : (ofNat n).toTree = .ofNat n := rfl

theorem toTree_ofInt (i : ℤ) : (ofInt i).toTree = .ofInt i := rfl

theorem toTrees_eq_map (items : List Json) : toTrees items = items.map toTree := by
  induction items with
  | nil => rfl
  | cons item rest ih => rw [toTrees, ih, List.map_cons]

/-- A natural number is written as one of 64 bits. -/
theorem exists_ofNat_eq (n : ℕ) : ∃ k < UInt64.size, ofNat n = ofNat k :=
  ⟨n % 0x10000000000000000, Nat.mod_lt _ (by norm_num), congrArg num (Number.ofInt_mod n)⟩

@[simp] theorem hasType_nat (n : ℕ) : (ofNat n).HasType .nat := by
  intro depth
  obtain ⟨k, hk, hn⟩ := exists_ofNat_eq n
  rw [hn, FieldType.ofTree?, toTree_ofNat, Tree.toNatBelow?_ofNat hk le_rfl]
  rfl

@[simp] theorem hasType_nats (ns : List ℕ) : (ofNats ns).HasType .nats := by
  intro depth
  choose f hf hn using exists_ofNat_eq
  have hitems : ((ns.map ofNat).map toTree).mapM (fun item => item.toNatBelow? UInt64.size) =
      some (ns.map f) := by
    rw [List.map_map, List.mapM_map]
    refine mapM_eq_pure_map fun n _ => ?_
    rw [Function.comp_apply, Function.comp_apply, hn, toTree_ofNat]
    exact Tree.toNatBelow?_ofNat (hf n) le_rfl
  have hvalue : ofNats (ns.map f) = ofNats ns := by
    rw [ofNats, List.map_map, ofNats]
    exact congrArg arr (List.map_congr_left fun n _ => (hn n).symm)
  rw [FieldType.ofTree?, ofNats, toTree, toTrees_eq_map, Tree.items?]
  simp only [Option.bind_eq_bind, Option.bind_some, hitems]
  rw [hvalue, ofNats]

@[simp] theorem hasType_counter (n : UInt32) : (ofNat n.toNat).HasType .counter := by
  intro depth
  rw [FieldType.ofTree?, toTree_ofNat, Tree.toNatBelow?_ofNat n.toNat_lt (by norm_num)]
  rfl

@[simp] theorem hasType_symbol (symbol : Symbol) : (ofInt symbol.toInt).HasType .symbol := by
  intro depth
  have hge := symbol.le_toInt
  have hlt := symbol.toInt_lt
  have hbounds : -0x80000000 ≤ symbol.toInt ∧ symbol.toInt < 0x80000000 := by omega
  rw [FieldType.ofTree?, toTree_ofInt, Tree.toInt?_ofInt (by omega), Option.filter,
    if_pos (decide_eq_true hbounds)]
  rfl

@[simp] theorem hasType_int {i : ℤ} (h : -0x8000000000000000 ≤ i ∧ i < 0x8000000000000000) :
    (ofInt i).HasType .int := by
  intro depth
  rw [FieldType.ofTree?, toTree_ofInt, Tree.toInt?_ofInt (by omega), Option.filter,
    if_pos (decide_eq_true h.2)]
  rfl

@[simp] theorem hasType_float {x : Float} (h : x.isFinite = true) : (ofFloat x).HasType .float := by
  intro depth
  have hnumber : ofFloat x = num (.float ⟨x, h⟩) := by
    rw [ofFloat, FiniteFloat.ofFloat?, dif_pos h]
  rw [hnumber]
  exact congrArg some hnumber

@[simp] theorem hasType_bool (b : Bool) : (bool b).HasType .bool := fun _ => rfl

@[simp] theorem hasType_text (text : String) : (str text).HasType .text := fun _ => rfl

theorem nesting_ofFloat (x : Float) : (ofFloat x).nesting = 0 := by
  rw [ofFloat]
  split <;> rfl

theorem itemsNesting_map_ofNat (ns : List ℕ) : itemsNesting (ns.map ofNat) = 0 := by
  induction ns with
  | nil => rfl
  | cons n ns ih =>
    rw [List.map_cons, itemsNesting, ih]
    rfl

/-- A value of a type is a list of scalars at most. -/
theorem HasType.nesting_le {j : Json} {type : FieldType} (h : j.HasType type) : j.nesting ≤ 1 := by
  have hread := h 0
  cases type with
  | nats =>
    obtain ⟨items, -, hread⟩ := Option.bind_eq_some_iff.mp hread
    obtain ⟨ns, -, hread⟩ := Option.bind_eq_some_iff.mp hread
    cases hread
    rw [ofNats, nesting, itemsNesting_map_ofNat]
  | nat | counter | symbol | int | bool | text =>
    obtain ⟨value, -, rfl⟩ := Option.map_eq_some_iff.mp hread
    exact Nat.zero_le _
  | float =>
    obtain ⟨value, -, rfl⟩ := Option.map_eq_some_iff.mp hread
    rw [nesting_ofFloat]
    exact Nat.zero_le _

end Json

/-! ### Records -/

section Records

variable {fields : List (String × FieldType × Json)}

/-- The payload of a record, given by its fields with their types. -/
abbrev recordOf (fields : List (String × FieldType × Json)) : Members none :=
  .ofList (fields.map fun field => (field.1, field.2.2))

theorem lookup_of_mem {α : Type} {l : List (String × α)} (hnodup : (l.map Prod.fst).Nodup)
    {name : String} {a : α} (h : (name, a) ∈ l) : l.lookup name = some a := by
  induction l with
  | nil => cases h
  | cons field l ih =>
    obtain ⟨hnot, hrest⟩ := List.nodup_cons.mp hnodup
    rw [List.lookup_cons]
    rcases List.mem_cons.mp h with rfl | hmem
    · simp
    · have hne : (name == field.1) = false := by
        rw [beq_eq_false_iff_ne]
        intro heq
        exact hnot (heq ▸ List.mem_map_of_mem hmem)
      rw [hne, ih hrest hmem]

theorem get?_recordOf (hnodup : (fields.map Prod.fst).Nodup) {field : String × FieldType × Json}
    (h : field ∈ fields) : (recordOf fields).get? field.1 = some field.2.2 := by
  have hnames : ((fields.map fun field => (field.1, field.2.2)).reverse.map Prod.fst).Nodup := by
    rw [List.map_reverse, List.map_map]
    exact List.nodup_reverse.mpr hnodup
  rw [Members.get?_ofList]
  refine lookup_of_mem hnames (List.mem_reverse.mpr ?_)
  exact List.mem_map_of_mem (f := fun field => (field.1, field.2.2)) h

/-- The members of a record are its fields. -/
theorem mem_toList_recordOf {member : String × Json} (h : member ∈ (recordOf fields).toList) :
    ∃ field ∈ fields, field.1 = member.1 ∧ field.2.2 = member.2 := by
  have hget := Members.get?_of_mem _ h
  rw [Members.get?_ofList] at hget
  obtain ⟨front, back, hsplit, -⟩ := List.lookup_eq_some_iff.mp hget
  have hmem : (member.1, member.2) ∈ fields.map fun field => (field.1, field.2.2) := by
    rw [← List.mem_reverse, hsplit]
    exact List.mem_append_right _ List.mem_cons_self
  obtain ⟨field, hfield, heq⟩ := List.mem_map.mp hmem
  exact ⟨field, hfield, (Prod.mk.inj heq).1, (Prod.mk.inj heq).2⟩

/-- The payload of a record is an object with these fields and no other. -/
theorem recordOf_eq_iff {m : Members none} (hnodup : (fields.map Prod.fst).Nodup)
    (hkeys : ∀ key value, m.get? key = some value → ∃ field ∈ fields, field.1 = key) :
    recordOf fields = m ↔ ∀ field ∈ fields, m.get? field.1 = some field.2.2 := by
  refine ⟨?_, fun h => Members.ext_get? _ _ fun key => Option.ext fun value => ⟨?_, ?_⟩⟩
  · rintro rfl field hfield
    exact get?_recordOf hnodup hfield
  · intro hget
    obtain ⟨field, hfield, rfl, rfl⟩ := mem_toList_recordOf (Members.mem_toList_of_get? _ hget)
    exact h field hfield
  · intro hget
    obtain ⟨field, hfield, rfl⟩ := hkeys key value hget
    rw [get?_recordOf hnodup hfield, ← h field hfield, hget]

/-- A record whose fields have their types is read back. -/
theorem Shape.ofTree?_record (hnodup : (fields.map Prod.fst).Nodup)
    (htypes : ∀ field ∈ fields, field.2.2.HasType field.2.1) (depth : ℕ) :
    (Shape.record (fields.map fun field => (field.1, field.2.1))).ofTree? (depth + 2)
      (Json.obj (recordOf fields)).toTree = some (.obj (recordOf fields)) := by
  have hnames : (fields.map fun field => (field.1, field.2.1)).map Prod.fst =
      fields.map Prod.fst := by
    rw [List.map_map]
    rfl
  have hkeys : ∀ member ∈ (recordOf fields).toList, member.1 ∈ fields.map Prod.fst := by
    intro member hmember
    obtain ⟨field, hfield, hname, -⟩ := mem_toList_recordOf hmember
    exact hname ▸ List.mem_map_of_mem hfield
  have hvalues : ((fields.map Prod.fst).map fun name =>
      ((recordOf fields).get? name).map Json.toTree) =
        fields.map fun field => some field.2.2.toTree := by
    rw [List.map_map]
    refine List.map_congr_left fun field hfield => ?_
    rw [Function.comp_apply, get?_recordOf hnodup hfield]
    rfl
  rw [Shape.ofTree?, hnames, Members.fields?_toTree hkeys, hvalues]
  simp only [Option.bind_eq_bind, Option.bind_some]
  rw [List.zip_map', List.mapM_map, mapM_eq_pure_map (g := fun field => (field.1, field.2.2))]
  · rfl
  · intro field hfield
    simp only [Function.comp_apply, Option.bind_some, Option.pure_def, htypes field hfield depth]

/-- A record whose fields have their types is not deep. -/
theorem nesting_recordOf_le (htypes : ∀ field ∈ fields, field.2.2.HasType field.2.1) :
    (Json.obj (recordOf fields)).nesting ≤ 2 := by
  refine Nat.add_le_add_right ((Members.nesting_le_iff _).mpr fun member hmember => ?_) 1
  obtain ⟨field, hfield, -, hvalue⟩ := mem_toList_recordOf hmember
  exact hvalue ▸ (htypes field hfield).nesting_le

end Records

/-! ### Reading records -/

/-- A record has a value, or none, for each of its names. -/
theorem Tree.length_of_fields? {t : Tree} {strict : Bool} {names : List String}
    {values : List (Option Tree)} (h : t.fields? strict names = some values) :
    values.length = names.length := by
  cases t with
  | arr items =>
    obtain ⟨hlength, ⟨⟩⟩ := Option.ite_none_right_eq_some.mp h
    rw [List.length_append, List.length_map, List.length_replicate]
    omega
  | obj fields =>
    obtain ⟨-, hvalues⟩ := Option.ite_none_right_eq_some.mp h
    exact (Yields.mapM (m := Option) _ _ _ hvalues).length_eq.symm
  | null | bool | num | str => cases h

/-- The fields of a record with their types and the values that they are read as. -/
theorem exists_typed {fields : List (String × FieldType)} {values : List (Option Tree)}
    {payload : List (String × Json)} {depth : ℕ} (hlength : values.length = fields.length)
    (h : ((fields.zip values).mapM fun (field, value) => do
      some (field.1, ← field.2.ofTree? depth (← value))) = some payload) :
    ∃ typed : List (String × FieldType × Json),
      typed.map (fun field => (field.1, field.2.1)) = fields ∧
      typed.map (fun field => (field.1, field.2.2)) = payload ∧
      List.Forall₂ (fun field value => ∃ tree, value = some tree ∧
        field.2.1.ofTree? depth tree = some field.2.2) typed values := by
  induction fields generalizing values payload with
  | nil =>
    cases List.length_eq_zero_iff.mp hlength
    cases h
    exact ⟨[], rfl, rfl, .nil⟩
  | cons field fields ih =>
    obtain ⟨value, values, rfl⟩ := List.exists_cons_of_length_eq_add_one hlength
    rw [List.zip_cons_cons, List.mapM_cons] at h
    obtain ⟨named, hnamed, h⟩ := Option.bind_eq_some_iff.mp h
    obtain ⟨payload, hpayload, h⟩ := Option.bind_eq_some_iff.mp h
    obtain ⟨tree, htree, hnamed⟩ := Option.bind_eq_some_iff.mp hnamed
    obtain ⟨read, hread, hnamed⟩ := Option.bind_eq_some_iff.mp hnamed
    cases hnamed
    cases h
    obtain ⟨typed, rfl, rfl, htyped⟩ := ih (Nat.succ_injective hlength) hpayload
    exact ⟨(field.1, field.2, read) :: typed, rfl, rfl, .cons ⟨tree, htree, hread⟩ htyped⟩

namespace Shape

variable {fields : List (String × FieldType)} {m : Members none} {depth : ℕ} {read : Json}

/-- A record is read as an object that has what is read as each field. -/
theorem exists_recordOf {t : Tree} (h : (record fields).ofTree? (depth + 1) t = some read) :
    ∃ values, t.fields? true (fields.map Prod.fst) = some values ∧
      ∃ typed : List (String × FieldType × Json),
        typed.map (fun field => (field.1, field.2.1)) = fields ∧ read = .obj (recordOf typed) ∧
        List.Forall₂ (fun field value => ∃ tree, value = some tree ∧
          field.2.1.ofTree? depth tree = some field.2.2) typed values := by
  obtain ⟨values, hvalues, h⟩ := Option.bind_eq_some_iff.mp h
  obtain ⟨payload, hpayload, h⟩ := Option.bind_eq_some_iff.mp h
  cases h
  have hlength := Tree.length_of_fields? hvalues
  rw [List.length_map] at hlength
  obtain ⟨typed, hfields, rfl, htyped⟩ := exists_typed hlength hpayload
  exact ⟨values, hvalues, typed, hfields, rfl, htyped⟩

/-- The members of an object that is read as a record, and what they are read as. -/
theorem exists_recordOf_obj
    (h : (record fields).ofTree? (depth + 1) (Json.obj m).toTree = some read) :
    ∃ typed : List (String × FieldType × Json),
      typed.map (fun field => (field.1, field.2.1)) = fields ∧ read = .obj (recordOf typed) ∧
      (∀ field ∈ typed, ∃ value, m.get? field.1 = some value ∧
        field.2.1.ofTree? depth value.toTree = some field.2.2) ∧
      ∀ key value, m.get? key = some value → ∃ field ∈ typed, field.1 = key := by
  obtain ⟨values, hvalues, typed, rfl, rfl, htyped⟩ := exists_recordOf h
  rw [Json.toTree, Tree.fields?] at hvalues
  obtain ⟨hall, hvalues⟩ := Option.ite_none_right_eq_some.mp hvalues
  rw [mapM_eq_pure_map fun name _ => m.only?_toFields name, List.map_map, List.map_map] at hvalues
  cases hvalues
  rw [List.forall₂_map_right_iff, List.forall₂_same] at htyped
  refine ⟨typed, rfl, rfl, fun field hfield => ?_, fun key value hvalue => ?_⟩
  · obtain ⟨tree, htree, hread⟩ := htyped field hfield
    obtain ⟨value, hvalue, rfl⟩ := Option.map_eq_some_iff.mp htree
    exact ⟨value, hvalue, hread⟩
  · have hnamed := List.all_eq_true.mp hall _ (m.mem_toFields_of_get? hvalue)
    have hmem : key ∈ (typed.map fun field => (field.1, field.2.1)).map Prod.fst := by
      simpa using hnamed
    rw [List.map_map] at hmem
    exact List.mem_map.mp hmem

/-- Reading a record reads every field of it. -/
theorem of_ofTree?_record
    (h : (record fields).ofTree? (depth + 1) (Json.obj m).toTree = some read) :
    ∀ field ∈ fields, ∃ value read, m.get? field.1 = some value ∧
      field.2.ofTree? depth value.toTree = some read := by
  obtain ⟨typed, rfl, -, htyped, -⟩ := exists_recordOf_obj h
  refine List.forall_mem_map.mpr fun field hfield => ?_
  obtain ⟨value, hvalue, hread⟩ := htyped field hfield
  exact ⟨value, field.2.2, hvalue, hread⟩

end Shape

/-! ### Filled shapes -/

/-- A payload fills a shape: it is a bag of memory, or a record whose fields have their types. -/
inductive Shape.Filled : Shape → Json → Prop
  | memory (m : Members none) : Filled .memory (.obj m)
  | record (fields : List (String × FieldType × Json)) (hnodup : (fields.map Prod.fst).Nodup)
      (htypes : ∀ field ∈ fields, field.2.2.HasType field.2.1) :
    Filled (.record (fields.map fun field => (field.1, field.2.1))) (.obj (recordOf fields))

namespace Shape.Filled

variable {shape : Shape} {data : Json}

/-- Only memory is deep. -/
theorem nesting_le (h : shape.Filled data) : shape = .memory ∨ data.nesting ≤ 2 := by
  cases h with
  | memory m => exact .inl rfl
  | record fields hnodup htypes => exact .inr (nesting_recordOf_le htypes)

/-- A payload that fills its shape is read back, if it does not nest too deep. -/
theorem ofTree?_toTree (h : shape.Filled data) (depth : ℕ) (hdeep : data.nesting ≤ depth + 2) :
    shape.ofTree? (depth + 2) data.toTree = some data := by
  cases h with
  | memory m =>
    rw [Shape.ofTree?, Json.toJson?_toTree, if_pos hdeep]
    rfl
  | record fields hnodup htypes => exact Shape.ofTree?_record hnodup htypes depth

end Shape.Filled

/-! ### Entries -/

theorem Fields.toList_ofList (fields : List (String × Tree)) :
    (ofList fields).toList = fields.map fun field => (some field.1, field.2) := by
  induction fields with
  | nil => rfl
  | cons field rest ih => rw [ofList, toList, ih, List.map_cons]

/-- Every literal in a record denotes something if this holds of its fields. -/
theorem Tree.isWritten_record {fields : List (String × Tree)}
    (h : ∀ field ∈ fields, field.2.IsWritten) : (record fields).IsWritten := by
  refine isWritten_obj fun field hfield => ?_
  rw [Fields.toList_ofList] at hfield
  obtain ⟨named, hnamed, rfl⟩ := List.mem_map.mp hfield
  exact ⟨rfl, h named hnamed⟩

namespace Entry

theorem ofTree?_record {id tag data : Tree} {n : UInt32} {text : String}
    (hid : id.toUInt32? = some n) (htag : tag.toText? = some text) (depth : ℕ) :
    ofTree? (depth + 1) (.record [("Id", id), ("Type", tag), ("Data", data)]) =
      (data.toJson? depth).map (Entry.mk n text) := by
  change (do some (Entry.mk (← id.toUInt32?) (← tag.toText?) (← data.toJson? depth))) = _
  rw [hid, htag]
  rcases data.toJson? depth <;> rfl

/-- An entry is read back, if its payload does not nest too deep. -/
theorem ofTree?_toTree (e : Entry) (depth : ℕ) :
    ofTree? (depth + 1) e.toTree = if e.data.nesting ≤ depth then some e else none := by
  rw [toTree, ofTree?_record (Tree.toUInt32?_ofNat e.id) rfl, Json.toJson?_toTree]
  split_ifs <;> rfl

/-- Every literal in the record of an entry denotes something. -/
theorem isWritten_toTree (e : Entry) : e.toTree.IsWritten := by
  refine Tree.isWritten_record fun field hfield => ?_
  simp only [List.mem_cons, List.not_mem_nil, or_false] at hfield
  rcases hfield with rfl | rfl | rfl
  · exact (Json.ofNat e.id.toNat).isWritten_toTree
  · exact (Json.str e.tag).isWritten_toTree
  · exact e.data.isWritten_toTree

end Entry

/-- Keeping every item that passes a check keeps the list if all items pass. -/
theorem mapM_ite {α : Type} {p : α → Prop} [DecidablePred p] {f : α → Option α} {l : List α}
    (h : ∀ a ∈ l, f a = if p a then some a else none) :
    l.mapM f = if ∀ a ∈ l, p a then some l else none := by
  induction l with
  | nil => rfl
  | cons a l ih =>
    obtain ⟨hfirst, hrest⟩ := List.forall_mem_cons.mp h
    rw [List.mapM_cons, hfirst, ih hrest]
    by_cases ha : p a
    · by_cases hl : ∀ b ∈ l, p b
      · rw [if_pos ha, if_pos hl, if_pos (List.forall_mem_cons.mpr ⟨ha, hl⟩)]
        rfl
      · rw [if_pos ha, if_neg hl, if_neg fun h => hl (List.forall_mem_cons.mp h).2]
        rfl
    · rw [if_neg ha, if_neg fun h => ha (List.forall_mem_cons.mp h).1]
      rfl

namespace Entry

/-- The entries of a ledger are read back from its text, if their payloads do not nest too deep. -/
theorem listOfBytes?_listText (ledger : List Entry) :
    listOfBytes? (listText ledger).toUTF8.toList =
      if ∀ e ∈ ledger, e.data.nesting + 2 ≤ containerLimit then some ledger else none := by
  have hwritten : (Tree.arr (ledger.map toTree)).IsWritten := by
    refine Tree.isWritten_arr fun t ht => ?_
    obtain ⟨e, -, rfl⟩ := List.mem_map.mp ht
    exact e.isWritten_toTree
  have hitems : (ledger.map toTree).mapM (ofTree? (containerLimit - 1)) =
      if ∀ e ∈ ledger, e.data.nesting + 2 ≤ containerLimit then some ledger else none := by
    rw [List.mapM_map]
    refine mapM_ite fun e _ => ?_
    rw [Function.comp_apply, show containerLimit - 1 = 125 + 1 from rfl, ofTree?_toTree]
    simp only [containerLimit, Nat.reduceLeDiff]
  rw [listOfBytes?, listText, Tree.ofBytes?_text hwritten, Option.bind_eq_bind, Option.bind_some,
    Tree.items?, Option.bind_eq_bind, Option.bind_some, hitems]

end Entry

/-! ### Registries -/

/-- The items of a list are their own results exactly when each item is. -/
theorem mapM_self_eq_ok {ε α : Type} {f : α → Except ε α} {items : List α} :
    items.mapM f = .ok items ↔ ∀ a ∈ items, f a = .ok a := by
  constructor
  · intro h
    exact List.forall₂_same.mp (Yields.mapM f items items h)
  · intro h
    rw [mapM_eq_pure_map (g := id) h, List.map_id]
    rfl

namespace Registry

variable (r : Registry)

/-- An entry that is read back from the text of a ledger: its payload has the shape of its tag and
nests no deeper than the record around it leaves room for. -/
def Stores (e : Entry) : Prop :=
  (∃ shape, r.shapeOf e.tag = .ok shape ∧
    shape.ofTree? containerLimit e.data.toTree = some e.data) ∧
  e.data.nesting + 2 ≤ containerLimit

variable {r}

theorem decode_text (tag : String) (id : UInt32) (data : Json) (e : Entry) :
    r.decode tag id data.text.toUTF8.toList = .ok e ↔
      ∃ shape read, r.shapeOf tag = .ok shape ∧
        shape.ofTree? containerLimit data.toTree = some read ∧ e = ⟨id, tag, read⟩ := by
  have hbytes (shape : Shape) : shape.ofBytes? data.text.toUTF8.toList =
      shape.ofTree? containerLimit data.toTree := by
    rw [Shape.ofBytes?, Json.text, Tree.ofBytes?_text data.isWritten_toTree]
    rfl
  rw [decode, bind_eq_ok]
  refine exists_congr fun shape => ?_
  rw [hbytes]
  rcases shape.ofTree? containerLimit data.toTree with _ | read
  · constructor
    · rintro ⟨-, hread⟩
      cases hread
    · rintro ⟨read, -, hread, -⟩
      cases hread
  · constructor
    · rintro ⟨hshape, hread⟩
      exact ⟨read, hshape, rfl, (Except.ok.inj hread).symm⟩
    · rintro ⟨read', hshape, hread, rfl⟩
      cases hread
      exact ⟨hshape, rfl⟩

/-- An entry that has been written can be read. -/
theorem encode_eq_ok {e : Entry} {text : String} :
    r.encode e = .ok text ↔
      text = e.data.text ∧ ∃ e', r.decode e.tag e.id e.data.text.toUTF8.toList = .ok e' := by
  rw [encode, bind_eq_ok]
  constructor
  · rintro ⟨e', he, htext⟩
    exact ⟨(Except.ok.inj htext).symm, e', he⟩
  · rintro ⟨rfl, e', he⟩
    exact ⟨e', he, rfl⟩

theorem encodeLedger_eq_ok {ledger : List Entry} {text : String} :
    r.encodeLedger ledger = .ok text ↔ text = Entry.listText ledger ∧
      ∀ e ∈ ledger, ∃ e', r.decode e.tag e.id e.data.text.toUTF8.toList = .ok e' := by
  rw [encodeLedger, bind_eq_ok]
  constructor
  · rintro ⟨_, hentries, htext⟩
    refine ⟨(Except.ok.inj htext).symm, fun e he => ?_⟩
    obtain ⟨payload, hpayload, -⟩ := bind_eq_ok.mp (forM_eq_ok.mp hentries e he)
    exact (encode_eq_ok.mp hpayload).2
  · rintro ⟨rfl, hentries⟩
    refine ⟨(), forM_eq_ok.mpr fun e he => ?_, rfl⟩
    exact bind_eq_ok.mpr ⟨_, encode_eq_ok.mpr ⟨rfl, hentries e he⟩, rfl⟩

theorem decodeLedger_listText (ledger : List Entry) :
    r.decodeLedger (Entry.listText ledger).toUTF8.toList = .ok ledger ↔
      ∀ e ∈ ledger, r.decode e.tag e.id e.data.text.toUTF8.toList = .ok e ∧
        e.data.nesting + 2 ≤ containerLimit := by
  rw [decodeLedger, Entry.listOfBytes?_listText]
  split_ifs with hdeep
  · refine mapM_self_eq_ok.trans (forall₂_congr fun e he => ?_)
    exact (and_iff_left (hdeep e he)).symm
  · exact iff_of_false nofun fun h => hdeep fun e he => (h e he).2

/-- A ledger is written and read back exactly when every entry of it is. -/
theorem stores_iff (ledger : List Entry) :
    (∃ text, r.encodeLedger ledger = .ok text ∧
      r.decodeLedger text.toUTF8.toList = .ok ledger) ↔ ∀ e ∈ ledger, r.Stores e := by
  have hstores (e : Entry) : r.Stores e ↔
      r.decode e.tag e.id e.data.text.toUTF8.toList = .ok e ∧
        e.data.nesting + 2 ≤ containerLimit := by
    rw [decode_text, Stores]
    refine and_congr_left' ?_
    constructor
    · rintro ⟨shape, hshape, hread⟩
      exact ⟨shape, e.data, hshape, hread, rfl⟩
    · rintro ⟨shape, read, hshape, hread, he⟩
      exact ⟨shape, hshape, hread.trans (congrArg (some ·.data) he).symm⟩
  simp only [hstores, encodeLedger_eq_ok]
  constructor
  · rintro ⟨_, ⟨rfl, -⟩, hread⟩
    exact (decodeLedger_listText ledger).mp hread
  · intro h
    exact ⟨_, ⟨rfl, fun e he => ⟨e, (h e he).1⟩⟩, (decodeLedger_listText ledger).mpr h⟩

end Registry

end SlotOutcome
