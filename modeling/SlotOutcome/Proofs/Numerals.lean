import SlotOutcome.Json.Token
import SlotOutcome.Proofs.NearestDoubles

/-!
# Numbers read back

The written form of a number is a literal that denotes the number, and reading it stops where the
literal ends, if what follows neither continues it nor looks as if it did. In a JSON text a comma,
a bracket or a brace follows, or nothing.

```text
  -12        0.0015       1.5e+16
  ┬┴┬        ┬ ─┬──       ┬ ┬ ─┬─
  │ whole    │  fraction  │ │  exponent
  sign       whole        │ fraction
                          whole
```

## Main definitions

* `utf8Bytes`: the bytes of characters.
* `EndsLiteral`: what may follow a number literal in a JSON text.

## Main results

* `NumberLiteral.scan?_parts`: a literal made of its parts is read as these parts.
* `Decimal.scan?_text`: the written form of a decimal denotes the decimal.
* `Number.scan?_chars`: the written form of a number denotes the number.
-/

namespace SlotOutcome

/-! ### Characters and bytes -/

/-- The bytes of characters. -/
def utf8Bytes (cs : List Char) : List UInt8 := cs.flatMap String.utf8EncodeChar

@[simp] theorem utf8Bytes_nil : utf8Bytes [] = [] := rfl

theorem utf8Bytes_append (cs cs' : List Char) :
    utf8Bytes (cs ++ cs') = utf8Bytes cs ++ utf8Bytes cs' := List.flatMap_append

theorem utf8Bytes_cons (c : Char) (cs : List Char) :
    utf8Bytes (c :: cs) = String.utf8EncodeChar c ++ utf8Bytes cs := List.flatMap_cons

theorem utf8Bytes_singleton (c : Char) : utf8Bytes [c] = String.utf8EncodeChar c :=
  List.append_nil _

/-- A character of ASCII is one byte. -/
theorem utf8EncodeChar_of_ascii {c : Char} (h : c.toNat ≤ 127) :
    String.utf8EncodeChar c = [UInt8.ofNat c.toNat] := if_pos h

theorem toNat_ascii {n : ℕ} (h : n ≤ 127) : (UInt8.ofNat n).toNat = n :=
  UInt8.toNat_ofNat_of_lt' (Nat.lt_of_le_of_lt h (by decide))

theorem utf8Bytes_of_ascii {cs : List Char} (h : ∀ c ∈ cs, c.toNat ≤ 127) :
    utf8Bytes cs = cs.map fun c => UInt8.ofNat c.toNat := by
  induction cs with
  | nil => rfl
  | cons c cs ih =>
    rw [utf8Bytes_cons, utf8EncodeChar_of_ascii (h c List.mem_cons_self),
      ih fun c hc => h c (List.mem_cons_of_mem _ hc)]
    rfl

/-! ### Digits -/

/-- Characters that are digits. -/
def Digits (cs : List Char) : Prop := ∀ c ∈ cs, c.isDigit = true

theorem Char.toNat_of_isDigit {c : Char} (h : c.isDigit = true) :
    48 ≤ c.toNat ∧ c.toNat ≤ 57 := by
  rw [Char.isDigit, Bool.and_eq_true, decide_eq_true_iff, decide_eq_true_iff] at h
  exact ⟨UInt32.le_iff_toNat_le.mp h.1, UInt32.le_iff_toNat_le.mp h.2⟩

namespace Digits

variable {cs cs' : List Char}

theorem append (h : Digits cs) (h' : Digits cs') : Digits (cs ++ cs') := by
  intro c hc
  rcases List.mem_append.mp hc with hc | hc
  · exact h c hc
  · exact h' c hc

theorem take (h : Digits cs) (n : ℕ) : Digits (cs.take n) :=
  fun c hc => h c (List.mem_of_mem_take hc)

theorem drop (h : Digits cs) (n : ℕ) : Digits (cs.drop n) :=
  fun c hc => h c (List.mem_of_mem_drop hc)

theorem zeros (n : ℕ) : Digits (List.replicate n '0') := by
  intro c hc
  rw [List.eq_of_mem_replicate hc]
  rfl

theorem ascii (h : Digits cs) : ∀ c ∈ cs, c.toNat ≤ 127 := by
  intro c hc
  have hdigit := Char.toNat_of_isDigit (h c hc)
  omega

theorem bytes (h : Digits cs) : ∀ b ∈ utf8Bytes cs, isDigitByte b = true := by
  rw [utf8Bytes_of_ascii h.ascii]
  intro b hb
  obtain ⟨c, hc, rfl⟩ := List.mem_map.mp hb
  have hdigit := Char.toNat_of_isDigit (h c hc)
  rw [isDigitByte, decide_eq_true_iff, UInt8.le_iff_toNat_le, UInt8.le_iff_toNat_le,
    toNat_ascii (h.ascii c hc)]
  exact hdigit

/-- Digits are read as the number that they write. -/
theorem natOfDigits (h : Digits cs) : natOfDigits (utf8Bytes cs) = Nat.ofDigitChars 10 cs 0 := by
  rw [utf8Bytes_of_ascii h.ascii, SlotOutcome.natOfDigits, List.foldl_map,
    Nat.ofDigitChars_eq_foldl]
  refine List.foldl_ext _ _ _ fun n c hc => ?_
  rw [toNat_ascii (h.ascii c hc)]
  rfl

end Digits

theorem digits_decimalDigits (n : ℕ) : Digits (decimalDigits n) :=
  fun _ hc => Nat.isDigit_of_mem_toDigits (by norm_num) (by norm_num) hc

theorem ofDigitChars_decimalDigits (n : ℕ) : Nat.ofDigitChars 10 (decimalDigits n) 0 = n :=
  Nat.ofDigitChars_ten_toDigits

theorem natOfDigits_decimalDigits (n : ℕ) : natOfDigits (utf8Bytes (decimalDigits n)) = n :=
  (digits_decimalDigits n).natOfDigits.trans (ofDigitChars_decimalDigits n)

/-- The first digit of a positive number is not zero. -/
theorem decimalDigits_of_pos {n : ℕ} (hn : 0 < n) :
    ∃ c cs, decimalDigits n = c :: cs ∧ c ≠ '0' := by
  induction n using Nat.strong_induction_on with
  | _ n ih =>
    rw [decimalDigits, Nat.toDigits_eq_if (by norm_num)]
    split_ifs with hlt
    · exact ⟨_, [], rfl, fun hzero => hn.ne' (Nat.digitChar_eq_zero.mp hzero)⟩
    · obtain ⟨c, cs, hcs, hc⟩ := ih (n / 10) (by omega) (by omega)
      rw [decimalDigits] at hcs
      exact ⟨c, cs ++ [(n % 10).digitChar], by rw [hcs]; rfl, hc⟩

/-- Digits before the point: a zero, or a number without leading zeros. -/
def LeadsWell (cs : List Char) : Prop := cs = ['0'] ∨ ∃ c rest, cs = c :: rest ∧ c ≠ '0'

theorem LeadsWell.ne_nil {cs : List Char} (h : LeadsWell cs) : cs ≠ [] := by
  rcases h with rfl | ⟨c, rest, rfl, -⟩ <;> exact List.cons_ne_nil _ _

theorem leadsWell_decimalDigits (n : ℕ) : LeadsWell (decimalDigits n) := by
  rcases Nat.eq_zero_or_pos n with rfl | hn
  · exact .inl (Nat.toDigits_zero 10)
  · exact .inr (decimalDigits_of_pos hn)

/-! ### The parts of a literal -/

/-- What follows the number literals of a JSON text: nothing, a comma, a bracket or a brace. -/
def EndsLiteral (text : List UInt8) : Prop := ∀ b ∈ text.head?, b = 44 ∨ b = 93 ∨ b = 125

/-- No digit stands at the front of a text. -/
def NoDigitFirst (text : List UInt8) : Prop := ∀ b ∈ text.head?, isDigitByte b = false

theorem EndsLiteral.noDigitFirst {text : List UInt8} (h : EndsLiteral text) :
    NoDigitFirst text := by
  intro b hb
  rcases h b hb with rfl | rfl | rfl <;> rfl

theorem span_digits {digits text : List UInt8} (h : ∀ b ∈ digits, isDigitByte b = true)
    (htext : NoDigitFirst text) : (digits ++ text).span isDigitByte = (digits, text) := by
  have htake : text.takeWhile isDigitByte = [] := by
    rcases text with _ | ⟨b, text⟩
    · rfl
    · rw [List.takeWhile_cons, htext b rfl]
      rfl
  have hdrop : text.dropWhile isDigitByte = text := by
    rcases text with _ | ⟨b, text⟩
    · rfl
    · rw [List.dropWhile_cons, htext b rfl]
      rfl
  rw [List.span_eq_takeWhile_dropWhile, List.takeWhile_append_of_pos h,
    List.dropWhile_append_of_pos h, htake, hdrop, List.append_nil]

/-- A first byte zero stands alone. -/
theorem LeadsWell.bytes {cs : List Char} (h : LeadsWell cs) (hcs : Digits cs) :
    ∃ b bs, utf8Bytes cs = b :: bs ∧ (b = 48 → bs = []) := by
  rw [utf8Bytes_of_ascii hcs.ascii]
  rcases h with rfl | ⟨c, rest, rfl, hc⟩
  · exact ⟨48, [], rfl, fun _ => rfl⟩
  · refine ⟨_, _, rfl, fun hzero => absurd ?_ hc⟩
    have hnat := congrArg UInt8.toNat hzero
    rw [toNat_ascii (hcs.ascii c List.mem_cons_self)] at hnat
    exact Char.toNat_inj.mp hnat

/-- Digits are no empty text. -/
theorem Digits.bytes_eq_cons {cs : List Char} (h : Digits cs) (hne : cs ≠ []) :
    ∃ b bs, utf8Bytes cs = b :: bs := by
  rw [utf8Bytes_of_ascii h.ascii]
  obtain ⟨c, cs, rfl⟩ := List.exists_cons_of_ne_nil hne
  exact ⟨_, _, rfl⟩

namespace NumberLiteral

variable {text text' : List UInt8} {cs : List Char}

theorem scanExponent_none (h : EndsLiteral text) : scanExponent text = some (none, text) := by
  rcases text with _ | ⟨b, text⟩
  · rfl
  · rcases h b rfl with rfl | rfl | rfl <;> rfl

/-- An exponent with its sign. -/
theorem scanExponent_some (negative : Bool) (hcs : Digits cs) (hne : cs ≠ [])
    (h : EndsLiteral text) :
    scanExponent (101 :: (if negative then 45 else 43) :: (utf8Bytes cs ++ text)) =
      some (some (if negative then -(Nat.ofDigitChars 10 cs 0 : ℤ)
        else (Nat.ofDigitChars 10 cs 0 : ℤ)), text) := by
  have hspan := span_digits hcs.bytes h.noDigitFirst
  obtain ⟨b, bs, hbytes⟩ := hcs.bytes_eq_cons hne
  rw [← hcs.natOfDigits]
  rw [hbytes] at hspan ⊢
  cases negative <;>
    simp only [scanExponent, true_or, if_true, Bool.false_eq_true, if_false, hspan]

theorem scanFraction_none (h : ∀ b ∈ text.head?, b ≠ 46) :
    scanFraction text = some (none, text) := by
  rcases text with _ | ⟨b, text⟩
  · rfl
  · have hb : b ≠ 46 := h b rfl
    rw [scanFraction]
    rintro rest ⟨⟩
    exact hb rfl

theorem scanFraction_some (hcs : Digits cs) (hne : cs ≠ []) (h : NoDigitFirst text) :
    scanFraction (46 :: (utf8Bytes cs ++ text)) = some (some (utf8Bytes cs), text) := by
  have hspan := span_digits hcs.bytes h
  obtain ⟨b, bs, hbytes⟩ := hcs.bytes_eq_cons hne
  rw [hbytes] at hspan ⊢
  rw [scanFraction, hspan]

/-- A literal after its sign. -/
def scanUnsigned? (negative : Bool) (text : List UInt8) : Option (NumberLiteral × List UInt8) := do
  let (whole, text) ← match text.span isDigitByte with
    | ([], _) => none
    | (48 :: digit :: more, rest) => some ([48], digit :: more ++ rest)
    | (digits, rest) => some (digits, rest)
  let (fraction, text) ← scanFraction text
  let (exponent, text) ← scanExponent text
  some (⟨negative, whole, fraction, exponent⟩, text)

/-- The sign at the front of a text, and the text after it. -/
def takeSign : List UInt8 → Bool × List UInt8
  | 45 :: rest => (true, rest)
  | text => (false, text)

theorem scan?_eq (text : List UInt8) :
    scan? text = scanUnsigned? (takeSign text).1 (takeSign text).2 := rfl

theorem scan?_of_ne {b : UInt8} (hb : b ≠ 45) (text : List UInt8) :
    scan? (b :: text) = scanUnsigned? false (b :: text) := by
  have hsign : takeSign (b :: text) = (false, b :: text) := by
    rw [takeSign]
    intro rest h
    cases h
    exact hb rfl
  rw [scan?_eq, hsign]

/-- A literal made of its parts is read as these parts. -/
theorem scan?_parts (negative : Bool) (hcs : Digits cs) (hleads : LeadsWell cs)
    {fraction : Option (List UInt8)} {exponent : Option ℤ} {rest : List UInt8}
    (htext : NoDigitFirst text) (hfraction : scanFraction text = some (fraction, text'))
    (hexponent : scanExponent text' = some (exponent, rest)) :
    scan? ((if negative then [45] else []) ++ (utf8Bytes cs ++ text)) =
      some (⟨negative, utf8Bytes cs, fraction, exponent⟩, rest) := by
  obtain ⟨b, bs, hbytes, hzero⟩ := hleads.bytes hcs
  have hspan := span_digits hcs.bytes htext
  have hunsigned : scanUnsigned? negative (utf8Bytes cs ++ text) =
      some (⟨negative, utf8Bytes cs, fraction, exponent⟩, rest) := by
    have hafter : (do
        let (fraction, text) ← scanFraction text
        let (exponent, text) ← scanExponent text
        some ((⟨negative, b :: bs, fraction, exponent⟩ : NumberLiteral), text)) =
          some (⟨negative, b :: bs, fraction, exponent⟩, rest) := by
      simp only [hfraction, hexponent, Option.bind_eq_bind, Option.bind_some]
    rw [scanUnsigned?, hspan, hbytes]
    by_cases hb48 : b = 48
    · rw [hb48, hzero hb48] at hafter ⊢
      exact hafter
    · split
      · next h => cases h
      · next h =>
        cases h
        exact absurd rfl hb48
      · next h =>
        cases h
        exact hafter
  cases negative
  · have hb : b ≠ 45 := by
      rintro rfl
      have hdigit := hcs.bytes 45 (by rw [hbytes]; exact List.mem_cons_self)
      cases hdigit
    rw [hbytes] at hunsigned ⊢
    exact (scan?_of_ne hb _).trans hunsigned
  · exact (scan?_eq _).trans hunsigned

end NumberLiteral

/-! ### Written decimals -/

open NumberLiteral

theorem EndsLiteral.ne_point {text : List UInt8} (h : EndsLiteral text) :
    ∀ b ∈ text.head?, b ≠ 46 := by
  intro b hb
  rcases h b hb with rfl | rfl | rfl <;> decide

theorem Digits.length_bytes {cs : List Char} (h : Digits cs) :
    (utf8Bytes cs).length = cs.length := by
  rw [utf8Bytes_of_ascii h.ascii, List.length_map]

/-- Characters that write a number without its sign, with a point or an exponent. -/
def Spells (cs : List Char) (x : ℚ) : Prop :=
  ∀ (negative : Bool) (rest : List UInt8), EndsLiteral rest →
    ∃ l, scan? ((if negative then [45] else []) ++ (utf8Bytes cs ++ rest)) = some (l, rest) ∧
      l.toInt? = none ∧ l.toDecimal.negative = negative ∧ l.toDecimal.magnitude = x

/-- Digits before and after a point. -/
theorem spells_point {whole fraction : List Char} (hwhole : Digits whole)
    (hleads : LeadsWell whole) (hfraction : Digits fraction) (hne : fraction ≠ []) :
    Spells (whole ++ '.' :: fraction)
      (Nat.ofDigitChars 10 (whole ++ fraction) 0 * 10 ^ (-(fraction.length : ℤ))) := by
  intro negative rest hrest
  have hbytes : utf8Bytes (whole ++ '.' :: fraction) ++ rest =
      utf8Bytes whole ++ (46 :: (utf8Bytes fraction ++ rest)) := by
    rw [utf8Bytes_append, utf8Bytes_cons, List.append_assoc]
    rfl
  have hpoint : NoDigitFirst (46 :: (utf8Bytes fraction ++ rest)) := by
    rintro b ⟨⟩
    rfl
  refine ⟨⟨negative, utf8Bytes whole, some (utf8Bytes fraction), none⟩, ?_, rfl, rfl, ?_⟩
  · rw [hbytes]
    exact scan?_parts negative hwhole hleads hpoint
      (scanFraction_some hfraction hne hrest.noDigitFirst) (scanExponent_none hrest)
  · simp only [Decimal.magnitude, toDecimal, Option.getD_some, Option.getD_none, zero_sub,
      hfraction.length_bytes, ← utf8Bytes_append, (hwhole.append hfraction).natOfDigits]

theorem ofDigitChars_append_zeros (cs : List Char) (n : ℕ) :
    Nat.ofDigitChars 10 (cs ++ List.replicate n '0') 0 = 10 ^ n * Nat.ofDigitChars 10 cs 0 := by
  rw [Nat.ofDigitChars_append, Nat.ofDigitChars_replicate_zero]

/-- Positional notation. -/
theorem spells_positional {digits : List Char} {places : ℤ} (hdigits : Digits digits)
    (hleads : LeadsWell digits) (hzero : digits = ['0'] → places ≤ 1) :
    Spells (positional digits places)
      (Nat.ofDigitChars 10 digits 0 * 10 ^ (places - digits.length)) := by
  have hne := hleads.ne_nil
  unfold positional
  split_ifs with hsmall hlarge
  · -- All digits stand after the point.
    have hzeros : Digits (List.replicate (-places).toNat '0' ++ digits) :=
      (Digits.zeros _).append hdigits
    have hspells := spells_point (Digits.zeros 1) (.inl rfl) hzeros
      (List.append_ne_nil_of_right_ne_nil _ hne)
    have hvalue : Nat.ofDigitChars 10
        (List.replicate 1 '0' ++ (List.replicate (-places).toNat '0' ++ digits)) 0 =
          Nat.ofDigitChars 10 digits 0 := by
      rw [Nat.ofDigitChars_append, Nat.ofDigitChars_append, Nat.ofDigitChars_replicate_zero,
        Nat.ofDigitChars_replicate_zero, Nat.mul_zero]
    have hlength : -((List.replicate (-places).toNat '0' ++ digits).length : ℤ) =
        places - digits.length := by
      rw [List.length_append, List.length_replicate]
      omega
    rw [hvalue, hlength] at hspells
    exact hspells
  · -- All digits stand before the point.
    have hzeros : Digits (digits ++ List.replicate (places.toNat - digits.length) '0') :=
      hdigits.append (Digits.zeros _)
    have hleads' : LeadsWell (digits ++ List.replicate (places.toNat - digits.length) '0') := by
      rcases hleads with rfl | ⟨c, rest, rfl, hc⟩
      · have hone : places.toNat - ['0'].length = 0 := by
          have hle := hzero rfl
          rw [List.length_singleton]
          omega
        rw [hone]
        exact .inl rfl
      · exact .inr ⟨c, _, List.cons_append, hc⟩
    have hspells := spells_point hzeros hleads' (Digits.zeros 1) (List.cons_ne_nil _ _)
    have hvalue : (Nat.ofDigitChars 10 (digits ++
        List.replicate (places.toNat - digits.length) '0' ++ List.replicate 1 '0') 0 : ℚ) *
          10 ^ (-((List.replicate 1 '0').length : ℤ)) =
        Nat.ofDigitChars 10 digits 0 * 10 ^ (places - digits.length) := by
      have hexponent : places - digits.length = ((places.toNat - digits.length : ℕ) : ℤ) := by omega
      rw [List.append_assoc, ← List.replicate_add, ofDigitChars_append_zeros, hexponent,
        List.length_replicate, zpow_natCast]
      push_cast
      rw [pow_succ, zpow_neg_one]
      field_simp
    rw [hvalue, List.append_assoc] at hspells
    rw [List.append_assoc]
    exact hspells
  · -- The point stands between two digits.
    have hsplit : digits.take places.toNat ++ digits.drop places.toNat = digits :=
      List.take_append_drop _ _
    have hleads' : LeadsWell (digits.take places.toNat) := by
      rcases hleads with rfl | ⟨c, rest, rfl, hc⟩
      · rw [List.length_singleton] at hlarge
        omega
      · obtain ⟨n, hn⟩ := Nat.exists_eq_succ_of_ne_zero (n := places.toNat) (by omega)
        rw [hn]
        exact .inr ⟨c, _, List.take_succ_cons, hc⟩
    have hfraction : digits.drop places.toNat ≠ [] := by
      rw [ne_eq, List.drop_eq_nil_iff]
      omega
    have hspells := spells_point (hdigits.take _) hleads' (hdigits.drop _) hfraction
    have hlength : -((digits.drop places.toNat).length : ℤ) = places - digits.length := by
      rw [List.length_drop]
      omega
    rw [hsplit, hlength] at hspells
    exact hspells

/-- The written form of an exponent. -/
def exponentChars (exponent : ℤ) : List Char :=
  'e' :: (if exponent < 0 then '-' else '+') :: decimalDigits exponent.natAbs

theorem scanExponent_chars (exponent : ℤ) {rest : List UInt8} (hrest : EndsLiteral rest) :
    scanExponent (utf8Bytes (exponentChars exponent) ++ rest) = some (some exponent, rest) := by
  have hscan := scanExponent_some (decide (exponent < 0)) (digits_decimalDigits exponent.natAbs)
    (leadsWell_decimalDigits exponent.natAbs).ne_nil hrest
  rw [ofDigitChars_decimalDigits] at hscan
  by_cases hneg : exponent < 0
  · have hvalue : -(exponent.natAbs : ℤ) = exponent := by omega
    simp only [hneg, decide_true, if_true, hvalue] at hscan
    rw [exponentChars, if_pos hneg, utf8Bytes_cons, utf8Bytes_cons, List.append_assoc,
      List.append_assoc]
    exact hscan
  · have hvalue : (exponent.natAbs : ℤ) = exponent := by omega
    simp only [hneg, decide_false, Bool.false_eq_true, if_false, hvalue] at hscan
    rw [exponentChars, if_neg hneg, utf8Bytes_cons, utf8Bytes_cons, List.append_assoc,
      List.append_assoc]
    exact hscan

/-- A first digit, then others after a point if there are any, and an exponent. -/
theorem spells_exponent {c : Char} {cs : List Char} (hdigits : Digits (c :: cs))
    (hleads : LeadsWell [c]) (exponent : ℤ) :
    Spells (c :: ((match cs with | [] => [] | _ :: _ => '.' :: cs) ++ exponentChars exponent))
      (Nat.ofDigitChars 10 (c :: cs) 0 * 10 ^ (exponent - cs.length)) := by
  intro negative rest hrest
  have hc : Digits [c] := hdigits.take 1
  have hcs : Digits cs := hdigits.drop 1
  have hexponent := scanExponent_chars exponent hrest
  have hletter : NoDigitFirst (utf8Bytes (exponentChars exponent) ++ rest) := by
    rintro b ⟨⟩
    rfl
  rcases cs with _ | ⟨c', cs⟩
  · refine ⟨⟨negative, utf8Bytes [c], none, some exponent⟩, ?_, rfl, rfl, ?_⟩
    · rw [List.nil_append, utf8Bytes_cons, List.append_assoc, ← utf8Bytes_singleton]
      refine scan?_parts negative hc hleads hletter (scanFraction_none ?_) hexponent
      rintro b ⟨⟩
      decide
    · simp only [Decimal.magnitude, toDecimal, Option.getD_some, Option.getD_none,
        List.append_nil, hc.natOfDigits, List.length_nil]
  · have hpoint : NoDigitFirst
        (46 :: (utf8Bytes (c' :: cs) ++ (utf8Bytes (exponentChars exponent) ++ rest))) := by
      rintro b ⟨⟩
      rfl
    have hbytes : utf8Bytes (c :: ('.' :: c' :: cs ++ exponentChars exponent)) ++ rest =
        utf8Bytes [c] ++
          (46 :: (utf8Bytes (c' :: cs) ++ (utf8Bytes (exponentChars exponent) ++ rest))) := by
      rw [utf8Bytes_cons, utf8Bytes_append, utf8Bytes_cons, List.append_assoc, List.append_assoc,
        List.append_assoc, utf8Bytes_singleton]
      rfl
    refine ⟨⟨negative, utf8Bytes [c], some (utf8Bytes (c' :: cs)), some exponent⟩, ?_, rfl, rfl, ?_⟩
    · rw [hbytes]
      exact scan?_parts negative hc hleads hpoint
        (scanFraction_some hcs (List.cons_ne_nil _ _) hletter) hexponent
    · simp only [Decimal.magnitude, toDecimal, Option.getD_some, hcs.length_bytes,
        ← utf8Bytes_append, (hc.append hcs).natOfDigits]
      rfl

/-- Scientific notation. -/
theorem spells_scientific {digits : List Char} (hdigits : Digits digits)
    (hleads : LeadsWell digits) (exponent : ℤ) :
    Spells (scientific digits exponent)
      (Nat.ofDigitChars 10 digits 0 * 10 ^ (exponent - (digits.length - 1 : ℕ))) := by
  obtain ⟨c, cs, rfl⟩ := List.exists_cons_of_ne_nil hleads.ne_nil
  have hfirst : LeadsWell [c] := by
    rcases hleads with hzero | ⟨c', rest, hcons, hc⟩
    · cases hzero
      exact .inl rfl
    · cases hcons
      exact .inr ⟨c, [], rfl, hc⟩
  have hspells := spells_exponent hdigits hfirst exponent
  rcases cs with _ | ⟨c', cs⟩ <;> exact hspells

/-- The written form of a decimal denotes the decimal. -/
theorem Decimal.scan?_text {d : Decimal} (hzero : d.digits = 0 → d.exponent = 0)
    {rest : List UInt8} (hrest : EndsLiteral rest) :
    ∃ l, scan? (utf8Bytes d.text ++ rest) = some (l, rest) ∧ l.toInt? = none ∧
      l.toDecimal.negative = d.negative ∧ l.toDecimal.magnitude = d.magnitude := by
  have hdigits := digits_decimalDigits d.digits
  have hleads := leadsWell_decimalDigits d.digits
  have hlength : 0 < (decimalDigits d.digits).length := List.length_pos_of_ne_nil hleads.ne_nil
  have hmagnitude : Spells (if positionalExponents.1 ≤
      d.exponent + (decimalDigits d.digits).length - 1 ∧
      d.exponent + (decimalDigits d.digits).length - 1 ≤ positionalExponents.2 then
        positional (decimalDigits d.digits) (d.exponent + (decimalDigits d.digits).length - 1 + 1)
      else scientific (decimalDigits d.digits) (d.exponent + (decimalDigits d.digits).length - 1))
      d.magnitude := by
    split_ifs
    · have hone : decimalDigits d.digits = ['0'] →
          d.exponent + (decimalDigits d.digits).length - 1 + 1 ≤ 1 := by
        intro h
        have hnone : d.digits = 0 := by
          rw [← ofDigitChars_decimalDigits d.digits, h]
          rfl
        rw [hzero hnone, h]
        rfl
      have hspells := spells_positional hdigits hleads hone
      have hexponent : d.exponent + (decimalDigits d.digits).length - 1 + 1 -
          (decimalDigits d.digits).length = d.exponent := by omega
      rwa [ofDigitChars_decimalDigits, hexponent] at hspells
    · have hspells := spells_scientific hdigits hleads
        (d.exponent + (decimalDigits d.digits).length - 1)
      have hexponent : d.exponent + (decimalDigits d.digits).length - 1 -
          ((decimalDigits d.digits).length - 1 : ℕ) = d.exponent := by omega
      rwa [ofDigitChars_decimalDigits, hexponent] at hspells
  obtain ⟨l, hscan, hint, hsign, hvalue⟩ := hmagnitude d.negative rest hrest
  refine ⟨l, ?_, hint, hsign, hvalue⟩
  rw [← hscan, text]
  cases d.negative <;> rfl

/-- Digits without point and exponent denote an integer. -/
theorem toNumber?_int {i : ℤ} (hi : -0x8000000000000000 ≤ i ∧ i < 0x10000000000000000) :
    toNumber? ⟨decide (i < 0), utf8Bytes (decimalDigits i.natAbs), none, none⟩ =
      some (.int i hi) := by
  have hofInt : Number.ofInt? i = some (.int i hi) := dif_pos hi
  simp only [toNumber?, toInt?, natOfDigits_decimalDigits]
  by_cases hneg : i < 0
  · have hne : i.natAbs ≠ 0 := by omega
    have hvalue : -(i.natAbs : ℤ) = i := by omega
    rw [if_pos (decide_eq_true hneg), if_neg hne, hvalue, hofInt]
    rfl
  · have hvalue : (i.natAbs : ℤ) = i := by omega
    rw [if_neg (by rwa [decide_eq_true_iff]), hvalue, hofInt]
    rfl

/-- The written form of a number denotes the number. -/
theorem Number.scan?_chars (n : Number) {rest : List UInt8} (hrest : EndsLiteral rest) :
    ∃ l, scan? (utf8Bytes n.chars ++ rest) = some (l, rest) ∧ l.toNumber? = some n := by
  cases n with
  | int i hi =>
    have hscan := scan?_parts (decide (i < 0)) (digits_decimalDigits i.natAbs)
      (leadsWell_decimalDigits i.natAbs) hrest.noDigitFirst (scanFraction_none hrest.ne_point)
      (scanExponent_none hrest)
    refine ⟨_, ?_, toNumber?_int hi⟩
    rw [← hscan, chars]
    by_cases hneg : i < 0
    · simp only [hneg, if_true, decide_true]
      rfl
    · simp only [hneg, if_false, decide_false]
      rfl
  | float x =>
    obtain ⟨l, hscan, hint, hsign, hvalue⟩ := Decimal.scan?_text x.exponent_shortest hrest
    refine ⟨l, hscan, ?_⟩
    rw [toNumber?, hint, Decimal.round_congr hsign hvalue, x.round_shortest]
    rfl

end SlotOutcome
