import SlotOutcome.Proofs.Numerals

/-!
# Texts read back

A text between quotes is read as the text. Most characters stand for themselves, as the bytes that
they are encoded by; quotes, backslashes and control characters are written with a backslash. Every
character gives pieces of its own, so a text is read character by character.

## Main definitions

* `escapedPieces`: what a character between quotes is read as.

## Main results

* `StringPiece.scan?_escapedChar`, `StringPiece.bytes?_escapedPieces`: one character.
* `StringPiece.scan?_stringChars`, `StringPiece.text?_pieces`: a text.
-/

namespace SlotOutcome

/-! ### The bytes of a text -/

theorem toList_loop_eq (bytes : ByteArray) (n i : ℕ) (h : bytes.size - i = n)
    (before : List UInt8) :
    ByteArray.toList.loop bytes i before = before.reverse ++ bytes.data.toList.drop i := by
  induction n generalizing i before with
  | zero =>
    have hi : ¬i < bytes.size := by omega
    rw [ByteArray.toList.loop, if_neg hi, List.drop_eq_nil_of_le (by simpa using Nat.not_lt.mp hi),
      List.append_nil]
  | succ n ih =>
    have hi : i < bytes.size := by omega
    have hi' : i < bytes.data.toList.length := by simpa using hi
    rw [ByteArray.toList.loop, if_pos hi, ih (i + 1) (by omega), List.reverse_cons,
      List.append_assoc, List.drop_eq_getElem_cons hi', List.singleton_append]
    congr 2
    simp [ByteArray.get!, hi]

theorem ByteArray.toList_eq (bytes : ByteArray) : bytes.toList = bytes.data.toList :=
  toList_loop_eq bytes _ 0 rfl []

theorem utf8Bytes_toList (s : String) : utf8Bytes s.toList = s.toByteArray.data.toList := by
  rw [← String.utf8Encode_toList, List.utf8Encode]
  simp [utf8Bytes]

/-- The bytes of a text are those of its characters. -/
theorem toUTF8_toList (s : String) : s.toUTF8.toList = utf8Bytes s.toList := by
  rw [ByteArray.toList_eq, String.toUTF8, utf8Bytes_toList]

/-- A text is read back from its bytes. -/
theorem fromUTF8?_utf8Bytes (s : String) :
    String.fromUTF8? (ByteArray.mk (utf8Bytes s.toList).toArray) = some s := by
  have hbytes : ByteArray.mk (utf8Bytes s.toList).toArray = s.toByteArray := by
    rw [utf8Bytes_toList, Array.toArray_toList]
  rw [hbytes, String.fromUTF8?, dif_pos s.isValidUTF8]
  rfl

/-! ### One character -/

/-- A byte that stands for itself between quotes. -/
def IsPlainByte (b : UInt8) : Prop := 32 ≤ b ∧ b ≠ 34 ∧ b ≠ 92

namespace StringPiece

/-- What follows a piece is read with the piece in front. -/
def before (pieces : List StringPiece) (read : Option (List StringPiece × List UInt8)) :
    Option (List StringPiece × List UInt8) := read.map fun r => (pieces ++ r.1, r.2)

theorem before_before (pieces pieces' : List StringPiece)
    (read : Option (List StringPiece × List UInt8)) :
    before pieces (before pieces' read) = before (pieces ++ pieces') read := by
  rcases read with _ | ⟨more, text⟩
  · rfl
  · exact congrArg some (Prod.ext (List.append_assoc _ _ _).symm rfl)

theorem scan?_plain {b : UInt8} (hb : IsPlainByte b) (text : List UInt8) :
    scan? (b :: text) = before [.byte b] (scan? text) := by
  obtain ⟨hge, hquote, hslash⟩ := hb
  rw [scan?]
  · rw [guard, if_pos ⟨hge, hslash⟩]
    rcases scan? text with _ | ⟨pieces, rest⟩ <;> rfl
  · exact hquote
  · rintro a b' c d rest rfl
    exact absurd rfl hslash
  · rintro e rest rfl
    exact absurd rfl hslash

theorem scan?_plains {bs : List UInt8} (hbs : ∀ b ∈ bs, IsPlainByte b) (text : List UInt8) :
    scan? (bs ++ text) = before (bs.map .byte) (scan? text) := by
  induction bs with
  | nil =>
    rw [List.nil_append]
    rcases scan? text with _ | ⟨pieces, rest⟩ <;> rfl
  | cons b bs ih =>
    rw [List.cons_append, scan?_plain (hbs b List.mem_cons_self),
      ih fun b hb => hbs b (List.mem_cons_of_mem _ hb), before_before]
    rfl

theorem scan?_escape {e b : UInt8} (he : escapedByte? e = some b) (text : List UInt8) :
    scan? (92 :: e :: text) = before [.byte b] (scan? text) := by
  have hunit : e ≠ 117 := by
    rintro rfl
    cases he
  rw [scan?, he]
  · rcases scan? text with _ | ⟨pieces, rest⟩ <;> rfl
  · rintro a b' c d rest rfl
    exact absurd rfl hunit

theorem scan?_unit {a b c d : UInt8} {i j k l : ℕ} (ha : hexDigit? a = some i)
    (hb : hexDigit? b = some j) (hc : hexDigit? c = some k) (hd : hexDigit? d = some l)
    (text : List UInt8) : scan? (92 :: 117 :: a :: b :: c :: d :: text) =
      before [.unit ((i * 16 + j) * 256 + k * 16 + l)] (scan? text) := by
  rw [scan?, ha, hb, hc, hd]
  rcases scan? text with _ | ⟨pieces, rest⟩ <;> rfl

end StringPiece

/-- What a character between quotes is read as: the bytes that it is encoded by, but for a control
character without a letter of its own. -/
def escapedPieces (c : Char) : List StringPiece :=
  if c.toNat < 32 ∧ c.toNat ∉ [8, 9, 10, 12, 13] then [.unit c.toNat]
  else (String.utf8EncodeChar c).map .byte

theorem escapedPieces_of_ne {c : Char} (h : 32 ≤ c.toNat ∨ c.toNat ∈ [8, 9, 10, 12, 13]) :
    escapedPieces c = (String.utf8EncodeChar c).map .byte := by
  rw [escapedPieces, if_neg]
  rintro ⟨hlt, hnot⟩
  rcases h with hge | hmem
  · omega
  · exact hnot hmem

/-- All bytes of a character beyond ASCII are beyond it. -/
theorem ascii_lt_of_mem_utf8EncodeChar {c : Char} (hc : 127 < c.toNat) :
    ∀ b ∈ String.utf8EncodeChar c, 127 < b.toNat := by
  have hc' : ¬c.val.toNat ≤ 127 := Nat.not_le.mpr hc
  intro b hb
  rw [String.utf8EncodeChar, if_neg hc'] at hb
  split_ifs at hb <;>
    simp only [List.mem_cons, List.not_mem_nil, or_false] at hb <;>
    rcases hb with rfl | rfl | rfl | rfl <;> rw [UInt8.toNat_ofNat'] <;> omega

/-- The bytes of a character that is no control character, quote or backslash stand for
themselves. -/
theorem isPlainByte_utf8EncodeChar {c : Char} (hc : 32 ≤ c.toNat) (hquote : c ≠ '"')
    (hslash : c ≠ '\\') : ∀ b ∈ String.utf8EncodeChar c, IsPlainByte b := by
  intro b hb
  rcases Nat.lt_or_ge 127 c.toNat with hlt | hle
  · have hb' := ascii_lt_of_mem_utf8EncodeChar hlt b hb
    refine ⟨UInt8.le_iff_toNat_le.mpr ?_, ?_, ?_⟩
    · exact Nat.le_of_lt (Nat.lt_of_le_of_lt (by decide) hb')
    · rintro rfl
      exact absurd hb' (by decide)
    · rintro rfl
      exact absurd hb' (by decide)
  · rw [utf8EncodeChar_of_ascii hle, List.mem_singleton] at hb
    subst hb
    have hnat := toNat_ascii hle
    refine ⟨UInt8.le_iff_toNat_le.mpr (hnat.symm ▸ hc), fun h => hquote ?_, fun h => hslash ?_⟩
    · rw [h] at hnat
      exact Char.toNat_inj.mp hnat.symm
    · rw [h] at hnat
      exact Char.toNat_inj.mp hnat.symm

theorem hexDigit?_lowerHexDigit {n : ℕ} (hn : n < 16) :
    hexDigit? (UInt8.ofNat (lowerHexDigit n).toNat) = some n := by
  have hall : ∀ n < 16, hexDigit? (UInt8.ofNat (lowerHexDigit n).toNat) = some n := by decide
  exact hall n hn

theorem utf8EncodeChar_lowerHexDigit {n : ℕ} (hn : n < 16) :
    String.utf8EncodeChar (lowerHexDigit n) = [UInt8.ofNat (lowerHexDigit n).toNat] := by
  have hall : ∀ n < 16, (lowerHexDigit n).toNat ≤ 127 := by decide
  exact utf8EncodeChar_of_ascii (hall n hn)

namespace StringPiece

/-- A character between quotes is read as its pieces. -/
theorem scan?_escapedChar (c : Char) (text : List UInt8) :
    scan? (utf8Bytes (escapedChar c) ++ text) = before (escapedPieces c) (scan? text) := by
  unfold escapedChar
  split_ifs with hquote hslash hplain
  · subst hquote
    exact scan?_escape (by decide) text
  · subst hslash
    exact scan?_escape (by decide) text
  · rw [escapedPieces_of_ne (.inl hplain), utf8Bytes_singleton]
    exact scan?_plains (isPlainByte_utf8EncodeChar hplain hquote hslash) text
  · split
    case h_1 h | h_2 h | h_3 h | h_4 h | h_5 h =>
      rw [escapedPieces_of_ne (.inr (by rw [h]; decide)), utf8EncodeChar_of_ascii (by omega), h]
      exact scan?_escape (by decide) text
    case h_6 h8 h9 h10 h12 h13 =>
      have hnot : c.toNat ∉ [8, 9, 10, 12, 13] := by
        simp only [List.mem_cons, List.not_mem_nil, or_false]
        rintro (h | h | h | h | h)
        exacts [h8 h, h9 h, h10 h, h12 h, h13 h]
      have hlt : c.toNat < 32 := Nat.not_le.mp hplain
      have hhigh : c.toNat / 16 < 16 := by omega
      have hlow : c.toNat % 16 < 16 := by omega
      have hunit : (0 * 16 + 0) * 256 + c.toNat / 16 * 16 + c.toNat % 16 = c.toNat := by omega
      have hzero : hexDigit? 48 = some 0 := by decide
      have hscan := scan?_unit hzero hzero
        (hexDigit?_lowerHexDigit hhigh) (hexDigit?_lowerHexDigit hlow) text
      rw [hunit] at hscan
      rw [escapedPieces, if_pos ⟨hlt, hnot⟩, ← hscan]
      simp only [utf8Bytes_cons, utf8Bytes_nil, utf8EncodeChar_lowerHexDigit hhigh,
        utf8EncodeChar_lowerHexDigit hlow]
      rfl

theorem bytes?_map_byte (bs : List UInt8) (pieces : List StringPiece) :
    bytes? (bs.map .byte ++ pieces) = (bytes? pieces).map (bs ++ ·) := by
  induction bs with
  | nil => simp
  | cons b bs ih =>
    rw [List.map_cons, List.cons_append, bytes?, ih, Option.map_map]
    rfl

/-- The pieces of a character spell its bytes. -/
theorem bytes?_escapedPieces (c : Char) (pieces : List StringPiece) :
    bytes? (escapedPieces c ++ pieces) = (bytes? pieces).map (String.utf8EncodeChar c ++ ·) := by
  rw [escapedPieces]
  split_ifs with h
  · have hsmall : c.toNat < 0xd800 ∨ 0xdfff < c.toNat := .inl (by omega)
    rw [List.singleton_append, bytes?.eq_def]
    simp only [if_pos hsmall, bytesOfCode, Char.ofNat_toNat]
  · exact bytes?_map_byte _ _

/-! ### A text -/

/-- A text between quotes is read as the pieces of its characters. -/
theorem scan?_stringChars (cs : List Char) (text : List UInt8) :
    scan? (utf8Bytes (cs.flatMap escapedChar) ++ 34 :: text) =
      some (cs.flatMap escapedPieces, text) := by
  induction cs with
  | nil => rfl
  | cons c cs ih =>
    rw [List.flatMap_cons, utf8Bytes_append, List.append_assoc, scan?_escapedChar, ih,
      List.flatMap_cons]
    rfl

theorem bytes?_pieces (cs : List Char) :
    bytes? (cs.flatMap escapedPieces) = some (utf8Bytes cs) := by
  induction cs with
  | nil => rfl
  | cons c cs ih =>
    rw [List.flatMap_cons, bytes?_escapedPieces, ih, utf8Bytes_cons]
    rfl

/-- The pieces of the characters of a text spell the text. -/
theorem text?_pieces (s : String) : text? (s.toList.flatMap escapedPieces) = some s := by
  rw [text?, bytes?_pieces]
  exact fromUTF8?_utf8Bytes s

end StringPiece

end SlotOutcome
