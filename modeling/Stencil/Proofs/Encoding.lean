import Stencil.Text.Utf8

/-! # Texts as bytes

A character is written as one to four bytes.  The reader takes these bytes for that character, whatever
follows them, and takes no others for it: overlong forms, surrogates and codes beyond the last plane are
refused at the second byte, or at the first.

* `readChar_encode`: the bytes of a character are read back.
* `encode_of_readChar`: bytes that are read as a character are those of that character.
* `decode_eq_ok_iff` carries both over to whole texts. -/

namespace Stencil.Utf8

/-! ### Bytes and their numbers -/

theorem eq_ofNat (b : UInt8) {n : Nat} (lt : n < 256) (e : b.toNat = n) : b = UInt8.ofNat n := by
  rw [← UInt8.toNat_inj, UInt8.toNat_ofNat_of_lt' lt, e]

theorem continues_iff {b : UInt8} : continues b = true ↔ 0x80 ≤ b.toNat ∧ b.toNat ≤ 0xBF := by
  simp [continues, UInt8.le_iff_toNat_le]

theorem secondFits_iff {first second : UInt8} : secondFits first second = true ↔
    continues second = true ∧ (first.toNat = 0xE0 → 0xA0 ≤ second.toNat)
      ∧ (first.toNat = 0xED → second.toNat < 0xA0) ∧ (first.toNat = 0xF0 → 0x90 ≤ second.toNat)
      ∧ (first.toNat = 0xF4 → second.toNat < 0x90) := by
  simp [secondFits, UInt8.le_iff_toNat_le, UInt8.lt_iff_toNat_lt, ← UInt8.toNat_inj, and_assoc,
    Decidable.imp_iff_not_or]

theorem widthOf?_eq (b : UInt8) : widthOf? b =
    if b.toNat < 0x80 then some 1 else if b.toNat < 0xC2 then none
    else if b.toNat < 0xE0 then some 2 else if b.toNat < 0xF0 then some 3
    else if b.toNat < 0xF5 then some 4 else none := by
  simp [widthOf?, UInt8.lt_iff_toNat_lt]

/-- The byte that continues a character with the last six bits of a number. -/
def continuation (n : Nat) : UInt8 := UInt8.ofNat (n % 64 + 0x80)

theorem toNat_continuation (n : Nat) : (continuation n).toNat = n % 64 + 0x80 :=
  UInt8.toNat_ofNat_of_lt' (show n % 64 + 0x80 < 256 by omega)

theorem continues_continuation (n : Nat) : continues (continuation n) = true := by
  rw [continues_iff, toNat_continuation]
  omega

/-- The bytes of a character by its code. -/
theorem utf8EncodeChar_eq (c : Char) : String.utf8EncodeChar c =
    if c.toNat ≤ 0x7F then [UInt8.ofNat c.toNat]
    else if c.toNat ≤ 0x7FF then
      [UInt8.ofNat (c.toNat / 0x40 % 0x20 + 0xC0), continuation c.toNat]
    else if c.toNat ≤ 0xFFFF then
      [UInt8.ofNat (c.toNat / 0x1000 % 0x10 + 0xE0), continuation (c.toNat / 0x40),
        continuation c.toNat]
    else
      [UInt8.ofNat (c.toNat / 0x40000 % 0x08 + 0xF0), continuation (c.toNat / 0x1000),
        continuation (c.toNat / 0x40), continuation c.toNat] := rfl

/-! ### Reading what is written -/

section readChar
variable {c : Char} {first b : UInt8} {fits : UInt8 → Bool} {needed taken code n : Nat}
  {bytes rest : List UInt8}

theorem readChar_of_width (width : Nat) (h : widthOf? first = some width) : readChar first bytes
    = readRest (secondFits first) (width - 1) 1 (startBits width first) bytes := by
  rw [readChar, h]

/-- A byte that fits adds its six bits to the code. -/
theorem readRest_continuation (h : fits (continuation n) = true) :
    readRest fits (needed + 1) taken code (continuation n :: bytes)
      = readRest continues needed (taken + 1) (code * 64 + n % 64) bytes := by
  have bits : (n % 64 + 0x80) % 64 = n % 64 := by omega
  rw [readRest, if_pos h, toNat_continuation, bits]

theorem readRest_done (h : code = c.toNat) : readRest fits 0 taken code rest = .ok (c, rest) := by
  rw [readRest, h, Char.ofNat_toNat]

theorem readChar_one (number : first.toNat = c.toNat) (le : c.toNat ≤ 0x7F) :
    readChar first rest = .ok (c, rest) := by
  rw [readChar_of_width 1 (by rw [widthOf?_eq, if_pos (by omega)])]
  exact readRest_done number

theorem readChar_two (number : first.toNat = c.toNat / 0x40 + 0xC0) (lt : 0x7F < c.toNat)
    (le : c.toNat ≤ 0x7FF) : readChar first (continuation c.toNat :: rest) = .ok (c, rest) := by
  have fits : secondFits first (continuation c.toNat) = true := by
    rw [secondFits_iff]
    exact ⟨continues_continuation _, by omega, by omega, by omega, by omega⟩
  rw [readChar_of_width 2
    (by rw [widthOf?_eq, if_neg (by omega), if_neg (by omega), if_pos (by omega)])]
  refine (readRest_continuation fits).trans (readRest_done ?_)
  rw [startBits, number]
  omega

theorem readChar_three (number : first.toNat = c.toNat / 0x1000 + 0xE0) (lt : 0x7FF < c.toNat)
    (le : c.toNat ≤ 0xFFFF) :
    readChar first (continuation (c.toNat / 0x40) :: continuation c.toNat :: rest)
      = .ok (c, rest) := by
  have valid : c.toNat < 0xD800 ∨ 0xDFFF < c.toNat ∧ c.toNat < 0x110000 := c.valid
  have fits : secondFits first (continuation (c.toNat / 0x40)) = true := by
    rw [secondFits_iff, toNat_continuation]
    exact ⟨continues_continuation _, by omega, by omega, by omega, by omega⟩
  rw [readChar_of_width 3 (by
    rw [widthOf?_eq, if_neg (by omega), if_neg (by omega), if_neg (by omega), if_pos (by omega)])]
  refine (readRest_continuation fits).trans ?_
  refine (readRest_continuation (continues_continuation _)).trans (readRest_done ?_)
  rw [startBits, number]
  omega

theorem readChar_four (number : first.toNat = c.toNat / 0x40000 + 0xF0) (lt : 0xFFFF < c.toNat) :
    readChar first (continuation (c.toNat / 0x1000) :: continuation (c.toNat / 0x40)
      :: continuation c.toNat :: rest) = .ok (c, rest) := by
  have valid : c.toNat < 0xD800 ∨ 0xDFFF < c.toNat ∧ c.toNat < 0x110000 := c.valid
  have fits : secondFits first (continuation (c.toNat / 0x1000)) = true := by
    rw [secondFits_iff, toNat_continuation]
    exact ⟨continues_continuation _, by omega, by omega, by omega, by omega⟩
  rw [readChar_of_width 4 (by
    rw [widthOf?_eq, if_neg (by omega), if_neg (by omega), if_neg (by omega), if_neg (by omega),
      if_pos (by omega)])]
  refine (readRest_continuation fits).trans ?_
  refine (readRest_continuation (continues_continuation _)).trans ?_
  refine (readRest_continuation (continues_continuation _)).trans (readRest_done ?_)
  have bits : startBits 4 first = first.toNat % 0x08 := rfl
  rw [bits, number]
  omega

/-- The bytes of a character are read back, whatever follows them. -/
theorem readChar_encode (c : Char) (rest : List UInt8) : ∃ first bytes,
    String.utf8EncodeChar c = first :: bytes ∧ readChar first (bytes ++ rest) = .ok (c, rest) := by
  have valid : c.toNat < 0xD800 ∨ 0xDFFF < c.toNat ∧ c.toNat < 0x110000 := c.valid
  have start {n m : Nat} (lt : n < 256) (e : n = m) : (UInt8.ofNat n).toNat = m :=
    (UInt8.toNat_ofNat_of_lt' lt).trans e
  rw [utf8EncodeChar_eq]
  split
  · rename_i one
    exact ⟨_, _, rfl, readChar_one (start (by omega) rfl) one⟩
  split
  · rename_i one two
    exact ⟨_, _, rfl, readChar_two (start (by omega) (by omega)) (by omega) two⟩
  split
  · rename_i one two three
    exact ⟨_, _, rfl, readChar_three (start (by omega) (by omega)) (by omega) three⟩
  · rename_i one two three
    exact ⟨_, _, rfl, readChar_four (start (by omega) (by omega)) (by omega)⟩

end readChar

/-! ### Writing what was read -/

section encode
variable {c : Char} {first b : UInt8} {fits : UInt8 → Bool} {needed taken code n : Nat}
  {bytes rest : List UInt8}

theorem eq_continuation (h : continues b = true) (e : n % 64 = b.toNat % 64) : b = continuation n := by
  obtain ⟨ge, le⟩ := continues_iff.mp h
  rw [← UInt8.toNat_inj, toNat_continuation]
  omega

/-- A byte that a character still needed fits and has added its bits to the code. -/
theorem exists_of_readRest (h : readRest fits (needed + 1) taken code bytes = .ok (c, rest)) :
    ∃ b later, bytes = b :: later ∧ fits b = true
      ∧ readRest continues needed (taken + 1) (code * 64 + b.toNat % 64) later = .ok (c, rest) := by
  cases bytes with
  | nil => simp [readRest] at h
  | cons b later =>
    rw [readRest] at h
    split at h
    · exact ⟨b, later, rfl, ‹_›, h⟩
    · simp at h

/-- A character that was read has the code that its bytes add up to, if that is a code. -/
theorem toNat_of_readRest (h : readRest fits 0 taken code bytes = .ok (c, rest))
    (valid : code < 0xD800 ∨ 0xDFFF < code ∧ code < 0x110000) : c.toNat = code ∧ bytes = rest := by
  obtain ⟨rfl, rfl⟩ := Prod.mk.injEq .. ▸ Except.ok.inj h
  refine ⟨?_, rfl⟩
  rw [Char.ofNat, dif_pos valid]
  rfl

theorem encode_one (lt : first.toNat < 0x80)
    (h : readRest fits 0 1 first.toNat bytes = .ok (c, rest)) :
    first :: bytes = String.utf8EncodeChar c ++ rest := by
  obtain ⟨code, rfl⟩ := toNat_of_readRest h (by omega)
  rw [utf8EncodeChar_eq, if_pos (by omega), code, UInt8.ofNat_toNat]
  rfl

theorem encode_two (ge : 0xC2 ≤ first.toNat) (lt : first.toNat < 0xE0)
    (h : readRest (secondFits first) 1 1 (first.toNat % 0x20) bytes = .ok (c, rest)) :
    first :: bytes = String.utf8EncodeChar c ++ rest := by
  obtain ⟨b, later, rfl, fits, h⟩ := exists_of_readRest h
  obtain ⟨follows, -⟩ := secondFits_iff.mp fits
  obtain ⟨code, rfl⟩ := toNat_of_readRest h (by omega)
  rw [utf8EncodeChar_eq, if_neg (by omega), if_pos (by omega), ← eq_ofNat first (by omega) (by omega),
    ← eq_continuation follows (by omega)]
  rfl

theorem encode_three (ge : 0xE0 ≤ first.toNat) (lt : first.toNat < 0xF0)
    (h : readRest (secondFits first) 2 1 (first.toNat % 0x10) bytes = .ok (c, rest)) :
    first :: bytes = String.utf8EncodeChar c ++ rest := by
  obtain ⟨b, later, rfl, fits, h⟩ := exists_of_readRest h
  obtain ⟨follows, overlong, surrogate, -⟩ := secondFits_iff.mp fits
  have range := continues_iff.mp follows
  obtain ⟨b', later, rfl, follows', h⟩ := exists_of_readRest h
  obtain ⟨code, rfl⟩ := toNat_of_readRest h (by omega)
  rw [utf8EncodeChar_eq, if_neg (by omega), if_neg (by omega), if_pos (by omega),
    ← eq_ofNat first (by omega) (by omega), ← eq_continuation follows (by omega),
    ← eq_continuation follows' (by omega)]
  rfl

theorem encode_four (ge : 0xF0 ≤ first.toNat) (lt : first.toNat < 0xF5)
    (h : readRest (secondFits first) 3 1 (first.toNat % 0x08) bytes = .ok (c, rest)) :
    first :: bytes = String.utf8EncodeChar c ++ rest := by
  obtain ⟨b, later, rfl, fits, h⟩ := exists_of_readRest h
  obtain ⟨follows, -, -, overlong, beyond⟩ := secondFits_iff.mp fits
  have range := continues_iff.mp follows
  obtain ⟨b', later, rfl, follows', h⟩ := exists_of_readRest h
  obtain ⟨b'', later, rfl, follows'', h⟩ := exists_of_readRest h
  obtain ⟨code, rfl⟩ := toNat_of_readRest h (by omega)
  rw [utf8EncodeChar_eq, if_neg (by omega), if_neg (by omega), if_neg (by omega),
    ← eq_ofNat first (by omega) (by omega), ← eq_continuation follows (by omega),
    ← eq_continuation follows' (by omega), ← eq_continuation follows'' (by omega)]
  rfl

/-- Bytes that are read as a character are those of that character. -/
theorem encode_of_readChar (h : readChar first bytes = .ok (c, rest)) :
    first :: bytes = String.utf8EncodeChar c ++ rest := by
  rw [readChar, widthOf?_eq] at h
  split at h
  · simp at h
  rename_i width found
  split at found
  · obtain rfl := Option.some.inj found
    exact encode_one (by omega) h
  split at found
  · simp at found
  split at found
  · obtain rfl := Option.some.inj found
    exact encode_two (by omega) (by omega) h
  split at found
  · obtain rfl := Option.some.inj found
    exact encode_three (by omega) (by omega) h
  split at found
  · obtain rfl := Option.some.inj found
    exact encode_four (by omega) (by omega) h
  · simp at found

end encode

/-! ### Texts -/

theorem decodeFrom_encode (text : Text) (position : Nat) :
    decodeFrom position (encode text) = .ok text := by
  induction text generalizing position with
  | nil => rw [encode, List.flatMap_nil, decodeFrom]
  | cons c text ih =>
    obtain ⟨first, bytes, e, read⟩ := readChar_encode c (encode text)
    have split : encode (c :: text) = first :: (bytes ++ encode text) := by
      rw [encode, List.flatMap_cons, e, ← encode, List.cons_append]
    rw [split, decodeFrom]
    split
    · rename_i failed
      rw [read] at failed
      cases failed
    · rename_i found
      rw [read] at found
      cases found
      rw [ih]
      rfl

theorem eq_encode_of_decodeFrom {position : Nat} {bytes : List UInt8} {text : Text}
    (h : decodeFrom position bytes = .ok text) : bytes = encode text := by
  fun_induction decodeFrom position bytes generalizing text with
  | case1 =>
    obtain rfl := Except.ok.inj h
    rfl
  | case2 => cases h
  | case3 position first bytes c rest read ih =>
    cases later : decodeFrom (position + 1 + (bytes.length - rest.length)) rest with
    | error flaw =>
      rw [later] at h
      cases h
    | ok text' =>
      rw [later] at h
      obtain rfl := Except.ok.inj h
      rw [encode, List.flatMap_cons, ← encode, ← ih later]
      exact encode_of_readChar read

/-- **Bytes are read as a text just if they are the bytes of that text.** -/
theorem decode_eq_ok_iff {bytes : List UInt8} {text : Text} :
    decode bytes = .ok text ↔ bytes = encode text := by
  refine ⟨eq_encode_of_decodeFrom, ?_⟩
  rintro rfl
  exact decodeFrom_encode text 0

end Stencil.Utf8
