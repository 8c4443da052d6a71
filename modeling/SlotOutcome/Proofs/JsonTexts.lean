import SlotOutcome.Json.Tree
import SlotOutcome.Proofs.BagLaws
import SlotOutcome.Proofs.Quotations

/-!
# JSON texts read back

A tree is read back from its text: first the tokens, then the tree that they spell. A value is read
back from its tree, if its containers do not nest too deep.

```text
  value ──► tree ──► tokens ──► characters ──► bytes
        ◄──      ◄──        ◄──────────────────
  nesting   order     a number is followed by
                      a comma, a bracket or a brace
```

## Main definitions

* `Token.IsWritten`, `Tree.IsWritten`: tokens and trees whose literals all denote something.
* `Token.Separated`: tokens whose number literals end where the next token begins.
* `Json.nesting`: how deep the containers of a value nest.

## Main results

* `Token.scan_chars`: tokens are read back.
* `Tree.parse_tokens`: a tree is read back from its tokens.
* `Tree.ofBytes?_text`: a tree is read back from its text.
* `Json.toJson?_toTree`: a value is read back from its tree, if it does not nest too deep.
-/

namespace SlotOutcome

namespace Token

/-! ### One token -/

/-- A token whose literal denotes something, or without a literal. -/
def IsWritten : Token → Prop
  | num value => value.isSome = true
  | str value => value.isSome = true
  | _ => True

/-- A token that is a number literal. -/
def IsNumber : Token → Prop
  | num _ => True
  | _ => False

/-- A token that a number literal ends before. -/
def Ends : Token → Prop
  | comma => True
  | closeArray => True
  | closeObject => True
  | _ => False

/-- A number literal begins with a digit or a sign. -/
theorem first_of_scan? {text rest : List UInt8} {l : NumberLiteral}
    (h : NumberLiteral.scan? text = some (l, rest)) :
    ∃ b bs, text = b :: bs ∧ (b = 45 ∨ isDigitByte b = true) := by
  rcases text with _ | ⟨b, bs⟩
  · cases h
  refine ⟨b, bs, rfl, or_iff_not_imp_left.mpr fun hb => ?_⟩
  rw [NumberLiteral.scan?_of_ne hb] at h
  by_contra hdigit
  have hspan : (b :: bs).span isDigitByte = ([], b :: bs) := by
    rw [List.span_eq_takeWhile_dropWhile, List.takeWhile_cons_of_neg hdigit,
      List.dropWhile_cons_of_neg hdigit]
  rw [NumberLiteral.scanUnsigned?, hspan] at h
  cases h

theorem mem_of_isDigitByte {b : UInt8} (h : isDigitByte b = true) :
    b ∈ [48, 49, 50, 51, 52, 53, 54, 55, 56, 57] := by
  rw [isDigitByte, decide_eq_true_iff, UInt8.le_iff_toNat_le, UInt8.le_iff_toNat_le] at h
  obtain ⟨hge, hle⟩ := h
  have hofNat : b = UInt8.ofNat b.toNat := UInt8.ofNat_toNat.symm
  generalize b.toNat = n at hge hle hofNat
  subst hofNat
  have hle' : n ≤ 57 := hle
  have hge' : 48 ≤ n := hge
  interval_cases n <;> decide

/-- What begins like a number is read as one. -/
theorem next?_number {text rest : List UInt8} {l : NumberLiteral}
    (h : NumberLiteral.scan? text = some (l, rest)) :
    next? text = some (num l.toNumber?, rest) := by
  obtain ⟨b, bs, rfl, hb⟩ := first_of_scan? h
  have hmem : b ∈ [45, 48, 49, 50, 51, 52, 53, 54, 55, 56, 57] :=
    hb.elim (fun hminus => hminus ▸ List.mem_cons_self)
      fun hdigit => List.mem_cons_of_mem _ (mem_of_isDigitByte hdigit)
  have hread := congrArg (fun r => r.bind fun r => some (num r.1.toNumber?, r.2)) h
  simp only [List.mem_cons, List.not_mem_nil, or_false] at hmem
  rcases hmem with rfl | rfl | rfl | rfl | rfl | rfl | rfl | rfl | rfl | rfl | rfl <;>
    exact hread

/-- A token is read back, if it is not a number that goes on. -/
theorem next?_chars {t : Token} (ht : t.IsWritten) {rest : List UInt8}
    (hrest : t.IsNumber → EndsLiteral rest) :
    next? (utf8Bytes t.chars ++ rest) = some (t, rest) := by
  cases t with
  | openObject | closeObject | openArray | closeArray | comma | colon | null => rfl
  | bool b => cases b <;> rfl
  | num value =>
    obtain ⟨n, rfl⟩ := Option.isSome_iff_exists.mp ht
    obtain ⟨l, hscan, hvalue⟩ := n.scan?_chars (hrest trivial)
    have hread := next?_number hscan
    rw [hvalue] at hread
    exact hread
  | str value =>
    obtain ⟨s, rfl⟩ := Option.isSome_iff_exists.mp ht
    have hbytes : utf8Bytes (str (some s)).chars ++ rest =
        34 :: (utf8Bytes (s.toList.flatMap escapedChar) ++ 34 :: rest) := by
      rw [chars, stringChars, utf8Bytes_cons, utf8Bytes_append, List.append_assoc,
        List.append_assoc]
      rfl
    have hread := congrArg (fun r => r.bind fun r => some (str (StringPiece.text? r.1), r.2))
      (StringPiece.scan?_stringChars s.toList rest)
    simp only [Option.bind_some, StringPiece.text?_pieces] at hread
    rw [hbytes]
    exact hread

/-- A token begins with a byte that is no white space. -/
theorem first_byte {t : Token} (ht : t.IsWritten) :
    ∃ b bs, utf8Bytes t.chars = b :: bs ∧ isBlankByte b = false := by
  cases t with
  | openObject | closeObject | openArray | closeArray | comma | colon | null =>
    exact ⟨_, _, rfl, rfl⟩
  | bool b => cases b <;> exact ⟨_, _, rfl, rfl⟩
  | num value =>
    obtain ⟨n, rfl⟩ := Option.isSome_iff_exists.mp ht
    have hend : EndsLiteral [] := fun _ hb => nomatch hb
    obtain ⟨l, hscan, -⟩ := n.scan?_chars hend
    obtain ⟨b, bs, hbytes, hb⟩ := first_of_scan? hscan
    rw [List.append_nil] at hbytes
    refine ⟨b, bs, hbytes, ?_⟩
    rcases hb with rfl | hdigit
    · rfl
    · have hmem := mem_of_isDigitByte hdigit
      simp only [List.mem_cons, List.not_mem_nil, or_false] at hmem
      rcases hmem with rfl | rfl | rfl | rfl | rfl | rfl | rfl | rfl | rfl | rfl <;> rfl
  | str value =>
    obtain ⟨s, rfl⟩ := Option.isSome_iff_exists.mp ht
    exact ⟨_, _, rfl, rfl⟩

/-! ### Several tokens -/

/-- Tokens that a number literal may stand before. -/
def EndNumber (tokens : List Token) : Prop := ∀ u ∈ tokens.head?, u.Ends

/-- Tokens whose number literals end where the next token begins. -/
def Separated : List Token → Prop
  | [] => True
  | t :: rest => (t.IsNumber → EndNumber rest) ∧ Separated rest

theorem endsLiteral_chars {tokens : List Token} (h : EndNumber tokens) :
    EndsLiteral (utf8Bytes (tokens.flatMap chars)) := by
  rcases tokens with _ | ⟨u, rest⟩
  · exact fun _ hb => nomatch hb
  · have hu : u.Ends := h u rfl
    intro b hb
    cases u with
    | comma | closeArray | closeObject =>
      cases hb
      decide
    | openObject | openArray | colon | null | bool _ | num _ | str _ => exact hu.elim

/-- Tokens are read back, a step for each. -/
theorem scanFrom_chars {tokens : List Token} (hwritten : ∀ t ∈ tokens, t.IsWritten)
    (hseparated : Separated tokens) {fuel : ℕ} (hfuel : tokens.length < fuel) :
    scanFrom fuel (utf8Bytes (tokens.flatMap chars)) = some tokens := by
  induction tokens generalizing fuel with
  | nil =>
    obtain ⟨fuel, rfl⟩ := Nat.exists_eq_succ_of_ne_zero (Nat.ne_zero_of_lt hfuel)
    rfl
  | cons t rest ih =>
    obtain ⟨fuel, rfl⟩ := Nat.exists_eq_succ_of_ne_zero (Nat.ne_zero_of_lt hfuel)
    have ht : t.IsWritten := hwritten t List.mem_cons_self
    have hrest : scanFrom fuel (utf8Bytes (rest.flatMap chars)) = some rest :=
      ih (fun u hu => hwritten u (List.mem_cons_of_mem _ hu)) hseparated.2
        (Nat.lt_of_succ_lt_succ hfuel)
    have hnext := next?_chars ht fun hnumber => endsLiteral_chars (hseparated.1 hnumber)
    obtain ⟨b, bs, hbytes, hb⟩ := first_byte ht
    rw [List.flatMap_cons, utf8Bytes_append]
    rw [hbytes, List.cons_append] at hnext ⊢
    rw [scanFrom, List.dropWhile_cons_of_neg (by rw [hb]; exact Bool.false_ne_true)]
    simp only [hnext, hrest, Option.bind_eq_bind, Option.bind_some]

theorem length_le_bytes {tokens : List Token} (hwritten : ∀ t ∈ tokens, t.IsWritten) :
    tokens.length ≤ (utf8Bytes (tokens.flatMap chars)).length := by
  induction tokens with
  | nil => exact Nat.zero_le _
  | cons t rest ih =>
    obtain ⟨b, bs, hbytes, -⟩ := first_byte (hwritten t List.mem_cons_self)
    have hrest := ih fun u hu => hwritten u (List.mem_cons_of_mem _ hu)
    rw [List.flatMap_cons, utf8Bytes_append, List.length_append, hbytes, List.length_cons,
      List.length_cons]
    omega

/-- Tokens are read back. -/
theorem scan_chars {tokens : List Token} (hwritten : ∀ t ∈ tokens, t.IsWritten)
    (hseparated : Separated tokens) :
    scan (utf8Bytes (tokens.flatMap chars)) = some tokens :=
  scanFrom_chars hwritten hseparated (Nat.lt_succ_of_le (length_le_bytes hwritten))

end Token

/-! ### Trees -/

open Token (Separated EndNumber)

mutual

/-- The number literals of a tree end where the next token begins. -/
theorem Tree.separated_tokens : (t : Tree) → {rest : List Token} → Separated rest →
    EndNumber rest → Separated (t.tokens ++ rest)
  | .null, _, h, _ => ⟨fun hnumber => hnumber.elim, h⟩
  | .bool _, _, h, _ => ⟨fun hnumber => hnumber.elim, h⟩
  | .num _, _, h, hends => ⟨fun _ => hends, h⟩
  | .str _, _, h, _ => ⟨fun hnumber => hnumber.elim, h⟩
  | .arr items, _, h, _ => ⟨fun hnumber => hnumber.elim, separated_itemTokens items h⟩
  | .obj fields, _, h, _ => ⟨fun hnumber => hnumber.elim, separated_fieldTokens fields h⟩

theorem separated_itemTokens : (items : List Tree) → {rest : List Token} → Separated rest →
    Separated (itemTokens items ++ rest)
  | [], _, h => ⟨fun hnumber => hnumber.elim, h⟩
  | item :: items, _, h => by
    rw [itemTokens, List.append_assoc]
    obtain ⟨hseparated, hends⟩ := separated_moreItemTokens items h
    exact item.separated_tokens hseparated hends

theorem separated_moreItemTokens : (items : List Tree) → {rest : List Token} → Separated rest →
    Separated (moreItemTokens items ++ rest) ∧ EndNumber (moreItemTokens items ++ rest)
  | [], _, h => ⟨⟨fun hnumber => hnumber.elim, h⟩, fun u hu => by cases hu; exact trivial⟩
  | item :: items, _, h => by
    rw [moreItemTokens, List.cons_append, List.append_assoc]
    obtain ⟨hseparated, hends⟩ := separated_moreItemTokens items h
    refine ⟨⟨fun hnumber => hnumber.elim, ?_⟩, fun u hu => by cases hu; exact trivial⟩
    exact item.separated_tokens hseparated hends

theorem separated_fieldTokens : (fields : Fields) → {rest : List Token} → Separated rest →
    Separated (fieldTokens fields ++ rest)
  | .nil, _, h => ⟨fun hnumber => hnumber.elim, h⟩
  | .cons _ value fields, _, h => by
    rw [fieldTokens, List.cons_append, List.cons_append, List.append_assoc]
    obtain ⟨hseparated, hends⟩ := separated_moreFieldTokens fields h
    refine ⟨fun hnumber => hnumber.elim, fun hnumber => hnumber.elim, ?_⟩
    exact value.separated_tokens hseparated hends

theorem separated_moreFieldTokens : (fields : Fields) → {rest : List Token} → Separated rest →
    Separated (moreFieldTokens fields ++ rest) ∧ EndNumber (moreFieldTokens fields ++ rest)
  | .nil, _, h => ⟨⟨fun hnumber => hnumber.elim, h⟩, fun u hu => by cases hu; exact trivial⟩
  | .cons _ value fields, _, h => by
    rw [moreFieldTokens, List.cons_append, List.cons_append, List.cons_append, List.append_assoc]
    obtain ⟨hseparated, hends⟩ := separated_moreFieldTokens fields h
    refine ⟨⟨fun hnumber => hnumber.elim, fun hnumber => hnumber.elim,
      fun hnumber => hnumber.elim, ?_⟩, fun u hu => by cases hu; exact trivial⟩
    exact value.separated_tokens hseparated hends

end

/-! ### Reading trees -/

/-- The tokens of a tree begin with one that closes nothing. -/
theorem Tree.tokens_eq_cons (t : Tree) :
    ∃ u us, t.tokens = u :: us ∧ u ≠ .closeArray ∧ u ≠ .closeObject := by
  cases t <;> exact ⟨_, _, rfl, by simp, by simp⟩

mutual

/-- A tree is read back from its tokens. A token takes at most two steps of the fuel, one for the
tree that it begins and one for the list that the tree is an item of. -/
theorem Tree.parse_tokens : (t : Tree) → (rest : List Token) → (fuel : ℕ) →
    2 * t.tokens.length ≤ fuel + 1 → Tree.parse fuel (t.tokens ++ rest) = some (t, rest)
  | .null, _, fuel + 1, _ => rfl
  | .bool _, _, fuel + 1, _ => rfl
  | .num _, _, fuel + 1, _ => rfl
  | .str _, _, fuel + 1, _ => rfl
  | .arr items, rest, fuel + 1, h => by
    rw [Tree.tokens, List.length_cons] at h
    rw [Tree.tokens, List.cons_append]
    rcases items with _ | ⟨item, items⟩
    · rfl
    · obtain ⟨u, us, htokens, hclose, -⟩ := item.tokens_eq_cons
      have hitems := parseItems_tokens item items rest fuel (by omega)
      rw [itemTokens, htokens, List.cons_append, List.cons_append] at hitems ⊢
      rw [Tree.parse]
      · rw [hitems]
        rfl
      · rintro more ⟨⟩
        exact hclose rfl
  | .obj fields, rest, fuel + 1, h => by
    rw [Tree.tokens, List.length_cons] at h
    rw [Tree.tokens, List.cons_append]
    rcases fields with _ | ⟨key, value, fields⟩
    · rfl
    · have hfields := parseFields_tokens key value fields rest fuel (by omega)
      rw [fieldTokens, List.cons_append] at hfields ⊢
      rw [Tree.parse]
      · rw [hfields]
        rfl
      · rintro more ⟨⟩
  | .null, _, 0, h => by simp [Tree.tokens] at h
  | .bool _, _, 0, h => by simp [Tree.tokens] at h
  | .num _, _, 0, h => by simp [Tree.tokens] at h
  | .str _, _, 0, h => by simp [Tree.tokens] at h
  | .arr _, _, 0, h => by simp [Tree.tokens] at h; omega
  | .obj _, _, 0, h => by simp [Tree.tokens] at h; omega
termination_by _ _ fuel => fuel

/-- The items of an array are read back from their tokens. -/
theorem parseItems_tokens : (item : Tree) → (items : List Tree) → (rest : List Token) →
    (fuel : ℕ) → 2 * (itemTokens (item :: items)).length ≤ fuel + 2 →
      parseItems fuel (itemTokens (item :: items) ++ rest) = some (item :: items, rest)
  | item, items, rest, fuel, h => by
    obtain ⟨u, us, htokens, -⟩ := item.tokens_eq_cons
    have hpos : 0 < item.tokens.length := by
      rw [htokens]
      exact Nat.zero_lt_succ _
    rw [itemTokens, List.length_append] at h
    rw [itemTokens, List.append_assoc]
    rcases items with _ | ⟨next, items⟩
    · rw [moreItemTokens, List.length_singleton] at h
      obtain ⟨fuel, rfl⟩ := Nat.exists_eq_succ_of_ne_zero (n := fuel) (by omega)
      rw [parseItems, item.parse_tokens _ fuel (by omega)]
      rfl
    · have hmore : moreItemTokens (next :: items) = .comma :: itemTokens (next :: items) := by
        rw [moreItemTokens, itemTokens]
      rw [hmore, List.length_cons] at h
      obtain ⟨fuel, rfl⟩ := Nat.exists_eq_succ_of_ne_zero (n := fuel) (by omega)
      have hitems := parseItems_tokens next items rest fuel (by omega)
      rw [parseItems, item.parse_tokens _ fuel (by omega), hmore, List.cons_append]
      simp only [Option.bind_eq_bind, Option.bind_some, hitems]
termination_by _ _ _ fuel => fuel

/-- The members of an object are read back from their tokens. -/
theorem parseFields_tokens : (key : Option String) → (value : Tree) → (fields : Fields) →
    (rest : List Token) → (fuel : ℕ) →
      2 * (fieldTokens (.cons key value fields)).length ≤ fuel + 2 →
        parseFields fuel (fieldTokens (.cons key value fields) ++ rest) =
          some (.cons key value fields, rest)
  | key, value, fields, rest, fuel, h => by
    rw [fieldTokens, List.length_cons, List.length_cons, List.length_append] at h
    rw [fieldTokens, List.cons_append, List.cons_append, List.append_assoc]
    obtain ⟨fuel, rfl⟩ := Nat.exists_eq_succ_of_ne_zero (n := fuel) (by omega)
    rcases fields with _ | ⟨nextKey, next, fields⟩
    · rw [parseFields, value.parse_tokens _ fuel (by omega)]
      rfl
    · have hmore : moreFieldTokens (.cons nextKey next fields) =
          .comma :: fieldTokens (.cons nextKey next fields) := by
        rw [moreFieldTokens, fieldTokens]
      rw [hmore, List.length_cons] at h
      have hfields := parseFields_tokens nextKey next fields rest fuel (by omega)
      rw [parseFields, value.parse_tokens _ fuel (by omega), hmore, List.cons_append]
      simp only [Option.bind_eq_bind, Option.bind_some, hfields]
termination_by _ _ _ _ fuel => fuel

end

/-! ### Texts -/

namespace Tree

/-- A tree whose literals all denote something. -/
def IsWritten (t : Tree) : Prop := ∀ u ∈ t.tokens, u.IsWritten

theorem ofTokens?_tokens (t : Tree) : ofTokens? t.tokens = some t := by
  have hparse := t.parse_tokens [] (2 * t.tokens.length + 1) (by omega)
  rw [List.append_nil] at hparse
  rw [ofTokens?, hparse]

theorem bytes_text (t : Tree) :
    t.text.toUTF8.toList = utf8Bytes (t.tokens.flatMap Token.chars) := by
  rw [toUTF8_toList, text, String.toList_ofList]

/-- A tree is read back from its text. -/
theorem ofBytes?_text {t : Tree} (h : t.IsWritten) : ofBytes? t.text.toUTF8.toList = some t := by
  have hseparated : Token.Separated (t.tokens ++ []) :=
    t.separated_tokens trivial fun _ hu => nomatch hu
  rw [List.append_nil] at hseparated
  rw [ofBytes?, bytes_text, Token.scan_chars h hseparated, Option.bind_some, ofTokens?_tokens]

end Tree

/-! ### Values -/

mutual

/-- How deep the containers of a value nest. -/
def Json.nesting : Json → ℕ
  | .arr items => itemsNesting items + 1
  | .obj members => members.nesting + 1
  | _ => 0

/-- How deep the containers of values nest. -/
def itemsNesting : List Json → ℕ
  | [] => 0
  | item :: rest => max item.nesting (itemsNesting rest)

/-- How deep the containers of the values of members nest. -/
def Members.nesting : {above : Option String} → Members above → ℕ
  | _, .nil => 0
  | _, .cons _ value _ rest => max value.nesting rest.nesting

end

theorem mem_moreItemTokens {u : Token} {items : List Tree} (h : u ∈ itemTokens items) :
    u ∈ moreItemTokens items := by
  rcases items with _ | ⟨item, items⟩
  · exact h
  · rw [moreItemTokens]
    rw [itemTokens] at h
    exact List.mem_cons_of_mem _ h

theorem mem_moreFieldTokens {u : Token} {fields : Fields} (h : u ∈ fieldTokens fields) :
    u ∈ moreFieldTokens fields := by
  rcases fields with _ | ⟨key, value, fields⟩
  · exact h
  · rw [moreFieldTokens]
    rw [fieldTokens] at h
    exact List.mem_cons_of_mem _ h

theorem isWritten_moreItemTokens {items : List Tree} (h : ∀ t ∈ items, t.IsWritten) :
    ∀ u ∈ moreItemTokens items, u.IsWritten := by
  induction items with
  | nil =>
    intro u hu
    cases List.mem_singleton.mp hu
    trivial
  | cons item items ih =>
    obtain ⟨hitem, hitems⟩ := List.forall_mem_cons.mp h
    intro u hu
    rw [moreItemTokens] at hu
    rcases List.mem_cons.mp hu with rfl | hu
    · trivial
    · exact (List.mem_append.mp hu).elim (hitem u) (ih hitems u)

theorem isWritten_moreFieldTokens : {fields : Fields} →
    (∀ field ∈ fields.toList, (Token.str field.1).IsWritten ∧ field.2.IsWritten) →
      ∀ u ∈ moreFieldTokens fields, u.IsWritten
  | .nil, _, u, hu => by
    cases List.mem_singleton.mp hu
    trivial
  | .cons key value rest, h, u, hu => by
    obtain ⟨⟨hkey, hvalue⟩, hrest⟩ := List.forall_mem_cons.mp h
    rw [moreFieldTokens] at hu
    simp only [List.mem_cons, List.mem_append] at hu
    rcases hu with rfl | rfl | rfl | hu | hu
    · trivial
    · exact hkey
    · trivial
    · exact hvalue u hu
    · exact isWritten_moreFieldTokens hrest u hu

namespace Tree

theorem isWritten_arr {items : List Tree} (h : ∀ t ∈ items, t.IsWritten) :
    (arr items).IsWritten := by
  intro u hu
  rcases List.mem_cons.mp hu with rfl | hu
  · trivial
  · exact isWritten_moreItemTokens h u (mem_moreItemTokens hu)

theorem isWritten_obj {fields : Fields}
    (h : ∀ field ∈ fields.toList, (Token.str field.1).IsWritten ∧ field.2.IsWritten) :
    (obj fields).IsWritten := by
  intro u hu
  rcases List.mem_cons.mp hu with rfl | hu
  · trivial
  · exact isWritten_moreFieldTokens h u (mem_moreFieldTokens hu)

end Tree

mutual

/-- Every literal in the tree of a value denotes something. -/
theorem Json.isWritten_toTree : (j : Json) → j.toTree.IsWritten
  | .null | .bool _ | .num _ | .str _ => by
    intro u hu
    cases List.mem_singleton.mp hu
    trivial
  | .arr items => Tree.isWritten_arr (isWritten_toTrees items)
  | .obj members => Tree.isWritten_obj (isWritten_toFields members)

theorem isWritten_toTrees : (items : List Json) → ∀ t ∈ Json.toTrees items, t.IsWritten
  | [] => fun _ ht => nomatch ht
  | item :: rest => List.forall_mem_cons.mpr ⟨item.isWritten_toTree, isWritten_toTrees rest⟩

theorem isWritten_toFields : {above : Option String} → (m : Members above) →
    ∀ field ∈ m.toFields.toList, (Token.str field.1).IsWritten ∧ field.2.IsWritten
  | _, .nil => fun _ hfield => nomatch hfield
  | _, .cons _ value _ rest =>
    List.forall_mem_cons.mpr ⟨⟨rfl, value.isWritten_toTree⟩, isWritten_toFields rest⟩

end

/-- Members are those that are copied one by one. -/
theorem Members.foldl_insert_toList (m : Members none) :
    m.toList.foldl (fun b field => b.insert field.1 field.2) .nil = m := by
  refine Members.ext_get? _ _ fun key => ?_
  have hget := Bag.get?_extend .nil m key
  rw [Members.get?_nil, Option.or_none] at hget
  exact hget

mutual

/-- A value is read back from its tree, if it does not nest too deep. -/
theorem Json.toJson?_toTree : (j : Json) → (depth : ℕ) →
    j.toTree.toJson? depth = if j.nesting ≤ depth then some j else none
  | .null, _ | .bool _, _ | .num _, _ | .str _, _ => rfl
  | .arr _, 0 => rfl
  | .obj _, 0 => rfl
  | .arr items, depth + 1 => by
    rw [Json.toTree, Tree.toJson?, itemsToJson?_toTrees, Json.nesting]
    simp only [Nat.add_le_add_iff_right]
    split_ifs <;> rfl
  | .obj members, depth + 1 => by
    rw [Json.toTree, Tree.toJson?, fieldsToJson?_toFields, Json.nesting]
    simp only [Nat.add_le_add_iff_right]
    rw [members.foldl_insert_toList]
    split_ifs <;> rfl

theorem itemsToJson?_toTrees : (items : List Json) → (depth : ℕ) →
    itemsToJson? (Json.toTrees items) depth =
      if itemsNesting items ≤ depth then some items else none
  | [], _ => rfl
  | item :: rest, depth => by
    rw [Json.toTrees, itemsToJson?, item.toJson?_toTree depth, itemsToJson?_toTrees rest depth,
      itemsNesting]
    by_cases hitem : item.nesting ≤ depth <;> by_cases hrest : itemsNesting rest ≤ depth <;>
      simp [hitem, hrest]

theorem fieldsToJson?_toFields : {above : Option String} → (m : Members above) → (depth : ℕ) →
    (before : Members none) → fieldsToJson? m.toFields depth before =
      if m.nesting ≤ depth then
        some (m.toList.foldl (fun b field => b.insert field.1 field.2) before) else none
  | _, .nil, _, _ => rfl
  | _, .cons key value _ rest, depth, before => by
    rw [Members.toFields, fieldsToJson?, value.toJson?_toTree depth, Members.nesting]
    by_cases hvalue : value.nesting ≤ depth
    · simp only [hvalue, if_true, Option.bind_eq_bind, Option.bind_some,
        fieldsToJson?_toFields rest depth, sup_le_iff, true_and]
      rfl
    · simp [hvalue]

end

end SlotOutcome
