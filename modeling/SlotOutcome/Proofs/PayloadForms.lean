import SlotOutcome.Proofs.Changes
import SlotOutcome.Proofs.LedgerTexts

/-!
# Forms of payloads

The text of a payload may have a form in which no feature would note it: fields in any order, a
record as an array, an integer in a field for doubles. Reading it gives a payload in the form of its
shape, and that one is read as it is. So a ledger that has been read once is stable.

A payload that is written has been checked against its shape, but not brought into its form. It is
read back as it was exactly when it was in that form before.

## Main definitions

* `Shape.InForm`: a payload is in the form that it is read in.

## Main results

* `Shape.stable_of_ofTree?`: what has been read is read as it is.
* `Shape.eq_iff_inForm`: which payloads are read as they are.
* `Registry.encodeLedger_of_decodeLedger`: a ledger that has been read is written and read back.
* `Registry.decode_of_encode`: which entries are read back as they were written.
-/

namespace SlotOutcome

/-! ### Nesting -/

theorem Members.nesting_insert_le {m : Members none} {key : String} {value : Json} {n : ℕ}
    (hm : m.nesting ≤ n) (hvalue : value.nesting ≤ n) : (m.insert key value).nesting ≤ n := by
  rw [nesting_le_iff] at hm ⊢
  intro member hmember
  have hget := get?_of_mem _ hmember
  rw [get?_insert] at hget
  split_ifs at hget
  · exact Option.some.inj hget ▸ hvalue
  · exact hm _ (mem_toList_of_get? m hget)

mutual

/-- A value that is read nests no deeper than it may. -/
theorem Tree.nesting_le_of_toJson? : (t : Tree) → {depth : ℕ} → {j : Json} →
    t.toJson? depth = some j → j.nesting ≤ depth
  | .null, _, _, h => by cases h; exact Nat.zero_le _
  | .bool _, _, _, h => by cases h; exact Nat.zero_le _
  | .num _, _, _, h => by
    obtain ⟨n, -, rfl⟩ := Option.map_eq_some_iff.mp h
    exact Nat.zero_le _
  | .str _, _, _, h => by
    obtain ⟨s, -, rfl⟩ := Option.map_eq_some_iff.mp h
    exact Nat.zero_le _
  | .arr items, depth + 1, _, h => by
    obtain ⟨values, hvalues, rfl⟩ := Option.map_eq_some_iff.mp h
    exact Nat.succ_le_succ (itemsNesting_le_of_itemsToJson? items hvalues)
  | .obj fields, depth + 1, _, h => by
    obtain ⟨members, hmembers, rfl⟩ := Option.map_eq_some_iff.mp h
    exact Nat.succ_le_succ (nesting_le_of_fieldsToJson? fields (Nat.zero_le _) hmembers)

theorem itemsNesting_le_of_itemsToJson? : (items : List Tree) → {depth : ℕ} →
    {values : List Json} → itemsToJson? items depth = some values → itemsNesting values ≤ depth
  | [], _, _, h => by cases h; exact Nat.zero_le _
  | item :: rest, _, _, h => by
    obtain ⟨value, hvalue, h⟩ := Option.bind_eq_some_iff.mp h
    obtain ⟨values, hvalues, h⟩ := Option.bind_eq_some_iff.mp h
    cases h
    exact max_le (item.nesting_le_of_toJson? hvalue) (itemsNesting_le_of_itemsToJson? rest hvalues)

theorem nesting_le_of_fieldsToJson? : (fields : Fields) → {depth : ℕ} →
    {before members : Members none} → before.nesting ≤ depth →
      fieldsToJson? fields depth before = some members → members.nesting ≤ depth
  | .nil, _, _, _, hbefore, h => by cases h; exact hbefore
  | .cons key value rest, _, _, _, hbefore, h => by
    obtain ⟨key, -, h⟩ := Option.bind_eq_some_iff.mp h
    obtain ⟨read, hread, h⟩ := Option.bind_eq_some_iff.mp h
    exact nesting_le_of_fieldsToJson? rest
      (Members.nesting_insert_le hbefore (value.nesting_le_of_toJson? hread)) h

end

/-! ### Fields -/

namespace Tree

theorem le_of_toInt? {t : Tree} {i : ℤ} (h : t.toInt? = some i) : -0x8000000000000000 ≤ i := by
  obtain ⟨n, -, hn⟩ := Option.bind_eq_some_iff.mp h
  rcases n with ⟨j, hj⟩ | x <;> cases hn
  exact hj.1

theorem of_toNatBelow? {t : Tree} {bound n : ℕ} (h : t.toNatBelow? bound = some n) :
    t.toInt? = some (n : ℤ) ∧ n < bound := by
  obtain ⟨i, hi, rfl⟩ := Option.map_eq_some_iff.mp h
  obtain ⟨hread, hbounds⟩ := Option.filter_eq_some_iff.mp hi
  obtain ⟨hpos, hlt⟩ := of_decide_eq_true hbounds
  rw [Int.toNat_of_nonneg hpos]
  exact ⟨hread, (Int.toNat_lt hpos).mpr hlt⟩

end Tree

/-- What is read from the tree of an integer is that integer. -/
theorem Json.eq_ofInt {j : Json} {i : ℤ} (h : j.toTree.toInt? = some i) : j = .ofInt i := by
  rcases j with _ | _ | (⟨k, hk⟩ | x) | _ | _ | _ <;> cases h
  rw [ofInt, Number.ofInt_of_bounds hk]

theorem Json.eq_ofNat {j : Json} {bound n : ℕ} (h : j.toTree.toNatBelow? bound = some n) :
    j = .ofNat n := eq_ofInt (Tree.of_toNatBelow? h).1

namespace FieldType

variable {type : FieldType} {depth : ℕ}

/-- What is read as a field has the type of the field. -/
theorem hasType_of_ofTree? {t : Tree} {j : Json} (h : type.ofTree? depth t = some j) :
    j.HasType type := by
  cases type with
  | nat =>
    obtain ⟨n, -, rfl⟩ := Option.map_eq_some_iff.mp h
    exact Json.hasType_nat n
  | nats =>
    rcases depth with _ | depth
    · cases h
    · obtain ⟨items, -, h⟩ := Option.bind_eq_some_iff.mp h
      obtain ⟨ns, -, h⟩ := Option.bind_eq_some_iff.mp h
      cases h
      exact Json.hasType_nats ns
  | counter =>
    obtain ⟨n, hn, rfl⟩ := Option.map_eq_some_iff.mp h
    rw [← UInt32.toNat_ofNat_of_lt' (Tree.of_toNatBelow? hn).2]
    exact Json.hasType_counter _
  | symbol =>
    obtain ⟨i, hi, rfl⟩ := Option.map_eq_some_iff.mp h
    obtain ⟨hge, hlt⟩ := of_decide_eq_true (Option.filter_eq_some_iff.mp hi).2
    rw [← Int32.toInt_ofInt_of_le hge hlt]
    exact Json.hasType_symbol _
  | int =>
    obtain ⟨i, hi, rfl⟩ := Option.map_eq_some_iff.mp h
    obtain ⟨hread, hlt⟩ := Option.filter_eq_some_iff.mp hi
    exact Json.hasType_int ⟨Tree.le_of_toInt? hread, of_decide_eq_true hlt⟩
  | float =>
    obtain ⟨n, -, rfl⟩ := Option.map_eq_some_iff.mp h
    exact Json.hasType_float n.isFinite_toFloat
  | bool =>
    obtain ⟨b, -, rfl⟩ := Option.map_eq_some_iff.mp h
    exact Json.hasType_bool b
  | text =>
    obtain ⟨s, -, rfl⟩ := Option.map_eq_some_iff.mp h
    exact Json.hasType_text s

/-- A double is read as a double. -/
theorem exists_float {t : Tree} {j : Json} (h : float.ofTree? depth t = some j) :
    ∃ x, j = .num (.float x) := by
  obtain ⟨n, -, rfl⟩ := Option.map_eq_some_iff.mp h
  refine ⟨⟨n.toFloat, n.isFinite_toFloat⟩, ?_⟩
  rw [Json.ofFloat, FiniteFloat.ofFloat?, dif_pos n.isFinite_toFloat]

/-- Only an integer in a field for doubles is read as something else. -/
theorem eq_iff_of_ofTree? {value read : Json} (h : type.ofTree? depth value.toTree = some read) :
    read = value ↔ (type = .float → ∃ x, value = .num (.float x)) := by
  refine ⟨?_, fun hfloat => ?_⟩
  · rintro rfl rfl
    exact exists_float h
  cases type with
  | nat | counter =>
    obtain ⟨n, hn, rfl⟩ := Option.map_eq_some_iff.mp h
    exact (Json.eq_ofNat hn).symm
  | nats =>
    rcases depth with _ | depth
    · cases h
    · obtain ⟨items, hitems, h⟩ := Option.bind_eq_some_iff.mp h
      obtain ⟨ns, hns, h⟩ := Option.bind_eq_some_iff.mp h
      cases h
      rcases value with _ | _ | _ | _ | values | _ <;> cases hitems
      have hread := Yields.mapM (m := Option) _ _ ns hns
      rw [Json.toTrees_eq_map, List.forall₂_map_left_iff] at hread
      have heq : List.Forall₂ Eq values (ns.map Json.ofNat) :=
        List.forall₂_map_right_iff.mpr (hread.imp fun _ _ hn => Json.eq_ofNat hn)
      rw [List.forall₂_eq_eq_eq] at heq
      rw [heq, Json.ofNats]
  | symbol | int =>
    obtain ⟨i, hi, rfl⟩ := Option.map_eq_some_iff.mp h
    exact (Json.eq_ofInt (Option.filter_eq_some_iff.mp hi).1).symm
  | float =>
    obtain ⟨x, rfl⟩ := hfloat rfl
    cases h
    change Json.ofFloat x.toFloat = _
    rw [Json.ofFloat, FiniteFloat.ofFloat?, dif_pos x.isFinite]
  | bool =>
    obtain ⟨b, hb, rfl⟩ := Option.map_eq_some_iff.mp h
    rcases value with _ | _ | _ | _ | _ | _ <;> cases hb
    rfl
  | text =>
    obtain ⟨s, hs, rfl⟩ := Option.map_eq_some_iff.mp h
    rcases value with _ | _ | _ | _ | _ | _ <;> cases hs
    rfl

end FieldType

/-! ### Shapes -/

/-- The names of the fields of a record. -/
def Shape.names : Shape → List String
  | record fields => fields.map Prod.fst
  | _ => []

theorem Effect.nodup_names (e : Effect) : e.shape.names.Nodup := by
  cases e <;> decide

namespace Shape

variable {fields : List (String × FieldType)} {depth : ℕ} {read : Json}

/-- What is read as a record fills the record. -/
theorem filled_of_ofTree? {t : Tree} (hnodup : (fields.map Prod.fst).Nodup)
    (h : (record fields).ofTree? depth t = some read) : (record fields).Filled read := by
  rcases depth with _ | depth
  · cases h
  obtain ⟨values, -, typed, rfl, rfl, htyped⟩ := exists_recordOf h
  have htypes : List.Forall₂ (fun field _ => field.2.2.HasType field.2.1 ∧ True) typed values :=
    htyped.imp fun _ _ ⟨_, _, hread⟩ => ⟨FieldType.hasType_of_ofTree? hread, trivial⟩
  rw [List.map_map] at hnodup
  exact .record typed hnodup ((List.forall₂_and_left typed values).mp htypes).1

theorem eq_of_ofTree?_memory {data : Json} (h : memory.ofTree? depth data.toTree = some read) :
    read = data := by
  obtain ⟨j, hj, h⟩ := Option.bind_eq_some_iff.mp h
  obtain ⟨m, hm, h⟩ := Option.bind_eq_some_iff.mp h
  cases h
  rw [Json.toJson?_toTree] at hj
  obtain ⟨-, ⟨⟩⟩ := Option.ite_none_right_eq_some.mp hj
  rcases data with _ | _ | _ | _ | _ | _ <;> cases hm
  rfl

theorem eq_of_ofTree?_nothing {data : Json} (h : nothing.ofTree? depth data.toTree = some read) :
    read = data := by
  rcases data with _ | _ | _ | _ | _ | _ <;> cases h
  rfl

/-- What has been read is read as it is, and it nests too deep only if it did so before. -/
theorem stable_of_ofTree? {shape : Shape} {data : Json} (hnodup : shape.names.Nodup)
    (hdeep : data.nesting + 2 ≤ containerLimit)
    (h : shape.ofTree? containerLimit data.toTree = some read) :
    shape.ofTree? containerLimit read.toTree = some read ∧
      read.nesting + 2 ≤ containerLimit := by
  cases shape with
  | nothing =>
    obtain rfl := eq_of_ofTree?_nothing h
    exact ⟨h, hdeep⟩
  | memory =>
    obtain rfl := eq_of_ofTree?_memory h
    exact ⟨h, hdeep⟩
  | record fields =>
    have hfilled := filled_of_ofTree? hnodup h
    have hshallow : read.nesting ≤ 2 := hfilled.nesting_le.resolve_left nofun
    exact ⟨hfilled.ofTree?_toTree 125 (hshallow.trans (by decide)),
      (Nat.add_le_add_right hshallow 2).trans (by decide)⟩

/-- A payload is in the form that it is read in: a record is an object, and its doubles are written
as doubles. Memory and nothing have one form only. -/
def InForm : Shape → Json → Prop
  | record fields, data => ∃ m, data = .obj m ∧
    ∀ field ∈ fields, field.2 = .float → ∃ x, m.get? field.1 = some (.num (.float x))
  | _, _ => True

/-- A payload is read as it is exactly when it is in form. -/
theorem eq_iff_inForm {shape : Shape} {data : Json} (hnodup : shape.names.Nodup)
    (h : shape.ofTree? depth data.toTree = some read) : read = data ↔ shape.InForm data := by
  cases shape with
  | nothing => exact iff_of_true (eq_of_ofTree?_nothing h) trivial
  | memory => exact iff_of_true (eq_of_ofTree?_memory h) trivial
  | record fields =>
    rcases depth with _ | depth
    · cases h
    by_cases hobj : ∃ m, data = .obj m
    · obtain ⟨m, rfl⟩ := hobj
      obtain ⟨typed, rfl, rfl, hread, hkeys⟩ := exists_recordOf_obj h
      have hnames : (typed.map Prod.fst).Nodup := by rwa [names, List.map_map] at hnodup
      have hform : (record (typed.map fun field => (field.1, field.2.1))).InForm (.obj m) ↔
          ∀ field ∈ typed, field.2.1 = .float → ∃ x, m.get? field.1 = some (.num (.float x)) :=
        ⟨fun ⟨_, hm, hall⟩ => by cases hm; exact List.forall_mem_map.mp hall,
          fun hall => ⟨m, rfl, List.forall_mem_map.mpr hall⟩⟩
      rw [Json.obj.injEq, recordOf_eq_iff hnames hkeys, hform]
      refine forall₂_congr fun field hfield => ?_
      obtain ⟨value, hget, hvalue⟩ := hread field hfield
      simp only [hget, Option.some_inj]
      rw [eq_comm, FieldType.eq_iff_of_ofTree? hvalue]
    · refine iff_of_false ?_ fun ⟨m, hm, _⟩ => hobj ⟨m, hm⟩
      rintro rfl
      obtain ⟨_, -, typed, -, hread, -⟩ := exists_recordOf h
      exact hobj ⟨_, hread⟩

end Shape

/-! ### Ledgers -/

namespace Entry

theorem nesting_of_ofTree? {t : Tree} {depth : ℕ} {e : Entry} (h : ofTree? depth t = some e) :
    e.data.nesting + 1 ≤ depth := by
  rcases depth with _ | depth
  · cases h
  obtain ⟨values, -, h⟩ := Option.bind_eq_some_iff.mp h
  split at h
  · next id tag data =>
    obtain ⟨id, -, h⟩ := Option.bind_eq_some_iff.mp h
    obtain ⟨id, -, h⟩ := Option.bind_eq_some_iff.mp h
    obtain ⟨tag, -, h⟩ := Option.bind_eq_some_iff.mp h
    obtain ⟨tag, -, h⟩ := Option.bind_eq_some_iff.mp h
    obtain ⟨data, -, h⟩ := Option.bind_eq_some_iff.mp h
    obtain ⟨payload, hpayload, h⟩ := Option.bind_eq_some_iff.mp h
    cases h
    exact Nat.succ_le_succ (data.nesting_le_of_toJson? hpayload)
  · cases h

theorem nesting_of_listOfBytes? {bytes : List UInt8} {ledger : List Entry}
    (h : listOfBytes? bytes = some ledger) :
    ∀ e ∈ ledger, e.data.nesting + 2 ≤ containerLimit := by
  obtain ⟨t, -, h⟩ := Option.bind_eq_some_iff.mp h
  obtain ⟨items, -, h⟩ := Option.bind_eq_some_iff.mp h
  have hdeep := Yields.mapM_all (m := Option) (Q := fun e : Entry => e.data.nesting + 1 ≤ 126)
    (f := ofTree? (containerLimit - 1)) (fun t e he => nesting_of_ofTree? he) items ledger h
  exact fun e he => Nat.succ_le_succ (hdeep e he)

end Entry

namespace Registry

variable {r : Registry}

theorem nodup_names_of_shapeOf {tag : String} {shape : Shape} (h : r.shapeOf tag = .ok shape) :
    shape.names.Nodup := by
  unfold shapeOf at h
  split at h
  · next effect _ =>
    cases h
    exact effect.nodup_names
  · cases h

/-- Ledgers that have been read are stable: a ledger that any text gives is written, and its text
gives it again. -/
theorem encodeLedger_of_decodeLedger {bytes : List UInt8} {ledger : List Entry}
    (h : r.decodeLedger bytes = .ok ledger) :
    ∃ text, r.encodeLedger ledger = .ok text ∧ r.decodeLedger text.toUTF8.toList = .ok ledger := by
  refine (stores_iff ledger).mpr fun e he => ?_
  unfold decodeLedger at h
  split at h
  · next raw hraw =>
    obtain ⟨entry, hentry, hdecode⟩ := (mem_of_mapM_eq_ok h).mp he
    obtain ⟨shape, read, hshape, hread, rfl⟩ := (decode_text _ _ _ _).mp hdecode
    obtain ⟨hagain, hdeep⟩ := Shape.stable_of_ofTree? (nodup_names_of_shapeOf hshape)
      (Entry.nesting_of_listOfBytes? hraw entry hentry) hread
    exact ⟨⟨shape, hshape, hagain⟩, hdeep⟩
  · cases h

/-- A ledger in a form that nobody writes: first a record as an array with integers for its doubles,
then the fields of an entry and the keys of its memory out of order. -/
def unsortedText : String :=
  "[[7,\"Multiplier\",[2,3]]," ++
    "\x7b\"Data\":\x7b\"B\":1,\"A\":2\x7d,\"Type\":\"StatefulMap\",\"Id\":1\x7d]"

theorem encodeLedger_of_decodeLedger_unsorted :
    ∃ ledger, builtin.decodeLedger unsortedText.toUTF8.toList = .ok ledger ∧
      ledger.map Entry.id = [7, 1] ∧
      ∃ text, builtin.encodeLedger ledger = .ok text ∧
        builtin.decodeLedger text.toUTF8.toList = .ok ledger := by
  have hids : (builtin.decodeLedger unsortedText.toUTF8.toList).map (List.map Entry.id) =
      .ok [7, 1] := by decide +kernel
  rcases hread : builtin.decodeLedger unsortedText.toUTF8.toList with e | ledger <;>
    rw [hread] at hids
  · cases hids
  · exact ⟨ledger, rfl, Except.ok.inj hids, encodeLedger_of_decodeLedger hread⟩

/-- An entry that has been written is read back as it was exactly when its payload was in form. -/
theorem decode_of_encode {e : Entry} {text : String} (h : r.encode e = .ok text) :
    ∃ shape read, r.shapeOf e.tag = .ok shape ∧
      r.decode e.tag e.id text.toUTF8.toList = .ok ⟨e.id, e.tag, read⟩ ∧
      (read = e.data ↔ shape.InForm e.data) := by
  obtain ⟨rfl, e', hdecode⟩ := encode_eq_ok.mp h
  obtain ⟨shape, read, hshape, hread, rfl⟩ := (decode_text _ _ _ _).mp hdecode
  exact ⟨shape, read, hshape, hdecode, Shape.eq_iff_inForm (nodup_names_of_shapeOf hshape) hread⟩

/-- An entry of a multiplier, with the numbers given for the factor and the total. -/
def multipliedBy (factor total : Json) : Entry :=
  ⟨7, "Multiplier", .ofFields [("Multiplier", factor), ("Total", total)]⟩

/-- Doubles that are written as doubles are read back as they were. -/
theorem decode_of_encode_doubles :
    ∃ text, builtin.encode (multipliedBy (.ofFloat 2.0) (.ofFloat 2.0)) = .ok text ∧
      builtin.decode "Multiplier" 7 text.toUTF8.toList =
        .ok (multipliedBy (.ofFloat 2.0) (.ofFloat 2.0)) := by
  have hfinite : (2.0 : Float).isFinite = true := by decide +kernel
  have hencode : builtin.encode (multipliedBy (.ofFloat 2.0) (.ofFloat 2.0)) =
      .ok "\x7b\"Multiplier\":2.0,\"Total\":2.0\x7d" := by decide +kernel
  have hnumber : Json.ofFloat 2.0 = .num (.float ⟨2.0, hfinite⟩) := by
    rw [Json.ofFloat, FiniteFloat.ofFloat?, dif_pos hfinite]
  obtain ⟨shape, read, hshape, hdecode, hform⟩ := decode_of_encode hencode
  cases hshape
  have hread : read = (multipliedBy (.ofFloat 2.0) (.ofFloat 2.0)).data := by
    refine hform.mpr ⟨_, rfl, fun field hfield _ => ⟨⟨2.0, hfinite⟩, ?_⟩⟩
    rw [← hnumber]
    rcases List.mem_cons.mp hfield with rfl | hfield
    · rfl
    · obtain rfl := List.mem_singleton.mp hfield
      rfl
  rw [hread] at hdecode
  exact ⟨_, hencode, hdecode⟩

/-- Integers are written as integers in fields for doubles, and they are read back as doubles. -/
theorem decode_ne_of_integers :
    builtin.encode (multipliedBy (.ofInt 2) (.ofInt 2)) =
      .ok "\x7b\"Multiplier\":2,\"Total\":2\x7d" ∧
    (builtin.decode "Multiplier" 7 "\x7b\"Multiplier\":2,\"Total\":2\x7d".toUTF8.toList).map
      (fun e => e.data.text) = .ok "\x7b\"Multiplier\":2.0,\"Total\":2.0\x7d" ∧
    builtin.decode "Multiplier" 7 "\x7b\"Multiplier\":2,\"Total\":2\x7d".toUTF8.toList ≠
      .ok (multipliedBy (.ofInt 2) (.ofInt 2)) := by
  have hread : (builtin.decode "Multiplier" 7
      "\x7b\"Multiplier\":2,\"Total\":2\x7d".toUTF8.toList).map (fun e => e.data.text) =
        .ok "\x7b\"Multiplier\":2.0,\"Total\":2.0\x7d" := by decide +kernel
  refine ⟨by decide +kernel, hread, fun hsame => ?_⟩
  rw [hsame] at hread
  exact absurd hread (by decide +kernel)

end Registry

end SlotOutcome
