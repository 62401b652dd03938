import CellMachine.Text.Utf8
import Mathlib.Data.List.Basic

/-! # Bytes and symbols determine each other

The symbols of a byte string, put back into bytes, are that byte string, and a text is read back
from its encoding. A byte string is therefore read as a text, without bad bytes, exactly when it is
the encoding of that text. Any part of the symbols of a byte string is read back from its bytes, so
symbols can be counted in a part as they are in the whole.
-/

namespace CellMachine.Text.Utf8

/-- A continuation byte is the byte of its payload. -/
theorem tail?_eq_some {b : UInt8} {t : Nat} :
    tail? b = some t ↔ t < 0x40 ∧ b = (0x80 + t).toUInt8 := by
  simp only [tail?, Option.ite_none_right_eq_some, Option.some.injEq, UInt8.le_iff_toNat_le,
    UInt8.lt_iff_toNat_lt, ← UInt8.toNat_inj, UInt8.toNat_ofNat, Nat.toUInt8_eq,
    UInt8.toNat_ofNat']
  omega

private theorem toNat_ofNat_of_valid {n : Nat} (valid : n.isValidChar) :
    (Char.ofNat n).toNat = n := by
  rw [Char.ofNat, dif_pos valid]
  rfl

/-- A number is made into the character of that number. -/
theorem scalar?_eq_some {least n : Nat} {c : Char} :
    scalar? least n = some c ↔ least ≤ n ∧ c.toNat = n := by
  simp only [scalar?, Option.ite_none_right_eq_some, Option.some.injEq]
  constructor
  · rintro ⟨⟨large, valid⟩, rfl⟩
    exact ⟨large, toNat_ofNat_of_valid valid⟩
  · rintro ⟨large, rfl⟩
    exact ⟨⟨large, c.valid⟩, Char.ofNat_toNat c⟩

theorem toNat_toUInt8 (n : Nat) : n.toUInt8.toNat = n % 256 :=
  UInt8.toNat_ofNat'

theorem toUInt8_eq_iff {n : Nat} {b : UInt8} : n.toUInt8 = b ↔ n % 256 = b.toNat := by
  rw [← UInt8.toNat_inj, toNat_toUInt8]

private theorem toNat_toUInt8_of_lt {n : Nat} (small : n < 256) : n.toUInt8.toNat = n := by
  rw [toNat_toUInt8, Nat.mod_eq_of_lt small]

/-- What is read as a character is the encoding of that character. -/
theorem encodeChar_of_char? {lead : UInt8} {rest : List UInt8} {c : Char} {taken : Nat}
    (found : char? lead rest = some (c, taken)) : encodeChar c = lead :: rest.take taken := by
  -- There is one case for each number of bytes, in which the bounds tell the payloads apart.
  unfold char? at found
  simp only [UInt8.le_iff_toNat_le, UInt8.lt_iff_toNat_lt, UInt8.toNat_ofNat] at found
  split at found
  case isTrue one =>
    simp only [Option.some.injEq, Prod.mk.injEq] at found
    obtain ⟨rfl, rfl⟩ := found
    have number : (Char.ofNat lead.toNat).toNat = lead.toNat :=
      toNat_ofNat_of_valid (.inl (by omega))
    rw [encodeChar, if_pos (by omega)]
    simp only [List.take_zero, List.cons.injEq, and_true, toUInt8_eq_iff]
    omega
  split at found
  case isTrue two =>
    match rest with
    | [] => cases found
    | b₁ :: rest =>
      simp only [bind, Option.bind_eq_some_iff, tail?_eq_some, scalar?_eq_some] at found
      obtain ⟨t₁, ⟨small₁, rfl⟩, _, ⟨large, number⟩, found⟩ := found
      cases found
      rw [encodeChar, if_neg (by omega), if_pos (by omega)]
      simp only [List.take, List.cons.injEq, and_true, toUInt8_eq_iff, toNat_toUInt8]
      omega
  split at found
  case isTrue three =>
    match rest with
    | [] | [_] => cases found
    | b₁ :: b₂ :: rest =>
      simp only [bind, Option.bind_eq_some_iff, tail?_eq_some, scalar?_eq_some] at found
      obtain ⟨t₁, ⟨small₁, rfl⟩, t₂, ⟨small₂, rfl⟩, _, ⟨large, number⟩, found⟩ := found
      cases found
      rw [encodeChar, if_neg (by omega), if_neg (by omega), if_pos (by omega)]
      simp only [List.take, List.cons.injEq, and_true, toUInt8_eq_iff, toNat_toUInt8]
      omega
  split at found
  case isTrue four =>
    match rest with
    | [] | [_] | [_, _] => cases found
    | b₁ :: b₂ :: b₃ :: rest =>
      simp only [bind, Option.bind_eq_some_iff, tail?_eq_some, scalar?_eq_some] at found
      obtain ⟨t₁, ⟨small₁, rfl⟩, t₂, ⟨small₂, rfl⟩, t₃, ⟨small₃, rfl⟩, _, ⟨large, number⟩, found⟩ :=
        found
      cases found
      rw [encodeChar, if_neg (by omega), if_neg (by omega), if_neg (by omega)]
      simp only [List.take, List.cons.injEq, and_true, toUInt8_eq_iff, toNat_toUInt8]
      omega
  case isFalse => cases found

theorem toNat_lt (c : Char) : c.toNat < 0x110000 := by
  have valid : c.toNat.isValidChar := c.valid
  simp only [Nat.isValidChar] at valid
  omega

/-- The encoding of a character is read as that character, whatever follows it. -/
theorem char?_encodeChar (c : Char) : ∃ lead tail, encodeChar c = lead :: tail ∧
    ∀ rest, char? lead (tail ++ rest) = some (c, tail.length) := by
  have bound := toNat_lt c
  have payload (n : Nat) : tail? (0x80 + n % 0x40).toUInt8 = some (n % 0x40) :=
    tail?_eq_some.2 ⟨Nat.mod_lt n (by decide), rfl⟩
  simp only [encodeChar, char?, UInt8.le_iff_toNat_le, UInt8.lt_iff_toNat_lt, UInt8.toNat_ofNat]
  split
  case isTrue one =>
    refine ⟨_, _, rfl, fun rest => ?_⟩
    rw [toNat_toUInt8_of_lt (by omega), if_pos (by omega), Char.ofNat_toNat]
    rfl
  split
  case isTrue two =>
    refine ⟨_, _, rfl, fun rest => ?_⟩
    rw [toNat_toUInt8_of_lt (by omega), if_neg (by omega), if_pos (by omega)]
    simp only [List.cons_append, Option.bind_eq_bind, Option.bind_eq_some_iff]
    exact ⟨_, payload _, c, scalar?_eq_some.2 ⟨by omega, by omega⟩, rfl⟩
  split
  case isTrue three =>
    refine ⟨_, _, rfl, fun rest => ?_⟩
    rw [toNat_toUInt8_of_lt (by omega), if_neg (by omega), if_neg (by omega), if_pos (by omega)]
    simp only [List.cons_append, Option.bind_eq_bind, Option.bind_eq_some_iff]
    exact ⟨_, payload _, _, payload _, c, scalar?_eq_some.2 ⟨by omega, by omega⟩, rfl⟩
  case isFalse four =>
    refine ⟨_, _, rfl, fun rest => ?_⟩
    rw [toNat_toUInt8_of_lt (by omega), if_neg (by omega), if_neg (by omega), if_neg (by omega),
      if_pos (by omega)]
    simp only [List.cons_append, Option.bind_eq_bind, Option.bind_eq_some_iff]
    exact ⟨_, payload _, _, payload _, _, payload _, c, scalar?_eq_some.2 ⟨by omega, by omega⟩, rfl⟩

/-- Characters are encoded as those of a string are. -/
theorem encodeChar_eq (c : Char) : encodeChar c = String.utf8EncodeChar c := by
  have bound : c.val.toNat < 0x110000 := toNat_lt c
  unfold encodeChar String.utf8EncodeChar Char.toNat
  generalize c.val.toNat = n at bound ⊢
  have le (k : Nat) : n ≤ k ↔ n < k + 1 := Nat.lt_succ_iff.symm
  simp only [le, Nat.reduceAdd]
  -- The remainders are there for the payload of the first byte, which is small enough anyway.
  split
  · rfl
  split
  · rw [Nat.mod_eq_of_lt (show n / 64 < 32 by omega), Nat.add_comm 192, Nat.add_comm 128]
  split
  · rw [Nat.mod_eq_of_lt (show n / 4096 < 16 by omega), Nat.add_comm 224, Nat.add_comm 128,
      Nat.add_comm 128]
  · rw [Nat.mod_eq_of_lt (show n / 262144 < 8 by omega), Nat.add_comm 240, Nat.add_comm 128,
      Nat.add_comm 128, Nat.add_comm 128]

theorem encode_toList (text : String) : encode text.toList = text.toUTF8.data.toList := by
  have bytes := String.toByteArray_ofList (l := text.toList)
  rw [String.ofList_toList] at bytes
  rw [String.toUTF8_eq_toByteArray, bytes, List.utf8Encode, List.data_toByteArray, encode,
    funext encodeChar_eq]

theorem encode_append (front back : List Char) :
    encode (front ++ back) = encode front ++ encode back :=
  List.flatMap_append

private theorem decodeAfter_eq (skip : Nat) (bytes : List UInt8) :
    decodeAfter skip bytes = decode (bytes.drop skip) := by
  induction skip generalizing bytes with
  | zero => rw [List.drop_zero, decode]
  | succ skip ih =>
    cases bytes with
    | nil => simp [decode, decodeAfter]
    | cons byte rest => rw [decodeAfter, ih, List.drop_succ_cons]

theorem decode_encodeChar_append (c : Char) (rest : List UInt8) :
    decode (encodeChar c ++ rest) = .char c :: decode rest := by
  obtain ⟨lead, tail, encoded, read⟩ := char?_encodeChar c
  rw [encoded, List.cons_append, decode, decodeAfter, read]
  simp only [decodeAfter_eq, List.drop_left]

/-- A text is read back from its encoding. -/
theorem decode_encode (text : List Char) : decode (encode text) = text.map .char := by
  induction text with
  | nil => rfl
  | cons c text ih =>
    rw [encode, List.flatMap_cons, decode_encodeChar_append, List.map_cons, ← ih, encode]

/-- No byte is lost or changed when a byte string is read. -/
theorem flatMap_bytes_decode (bytes : List UInt8) :
    (decode bytes).flatMap Symbol.bytes = bytes := by
  suffices general : ∀ skip bytes,
      (decodeAfter skip bytes).flatMap Symbol.bytes = bytes.drop skip from general 0 bytes
  intro skip bytes
  fun_induction decodeAfter skip bytes with
  | case1 => simp
  | case2 skip byte rest ih => simpa using ih
  | case3 byte rest c taken found ih =>
    rw [List.flatMap_cons, ih, Symbol.bytes, encodeChar_of_char? found]
    simp
  | case4 byte rest none ih => simpa [Symbol.bytes] using ih

/-- A byte string is read as a text without bad bytes exactly when it is the encoding of that
text. -/
theorem decode_eq_iff {bytes : List UInt8} {text : List Char} :
    decode bytes = text.map .char ↔ bytes = encode text := by
  constructor
  · intro read
    rw [← flatMap_bytes_decode bytes, read, List.flatMap_map]
    rfl
  · rintro rfl
    exact decode_encode text

/-! ## Parts of what has been read -/

/-- Symbols that are read back from their bytes. -/
def ReadBack (symbols : List Symbol) : Prop :=
  decode (symbols.flatMap Symbol.bytes) = symbols

theorem readBack_decode (bytes : List UInt8) : ReadBack (decode bytes) := by
  rw [ReadBack, flatMap_bytes_decode]

/-- Where a character is read, it is read whatever follows. -/
theorem char?_eq_none_of_append {lead : UInt8} {rest more : List UInt8}
    (nothing : char? lead (rest ++ more) = none) : char? lead rest = none := by
  refine Option.eq_none_iff_forall_ne_some.2 fun ⟨c, taken⟩ found => ?_
  obtain ⟨first, tail, encoded, read⟩ := char?_encodeChar c
  rw [encodeChar_of_char? found, List.cons.injEq] at encoded
  obtain ⟨rfl, rfl⟩ := encoded
  have again := read (rest.drop taken ++ more)
  rw [← List.append_assoc, List.take_append_drop, nothing] at again
  cases again

private theorem readBack_char_cons {c : Char} {symbols : List Symbol} :
    ReadBack (.char c :: symbols) ↔ ReadBack symbols := by
  rw [ReadBack, List.flatMap_cons, Symbol.bytes, decode_encodeChar_append, List.cons.injEq,
    eq_self, true_and, ReadBack]

/-- A byte is read as a bad one when no character starts there. -/
theorem readBack_bad_cons {byte : UInt8} {symbols : List Symbol} :
    ReadBack (.bad byte :: symbols) ↔
      char? byte (symbols.flatMap Symbol.bytes) = none ∧ ReadBack symbols := by
  rw [ReadBack, List.flatMap_cons, Symbol.bytes, List.singleton_append, decode, decodeAfter]
  cases found : char? byte (symbols.flatMap Symbol.bytes) with
  | none => simp [ReadBack, decode]
  | some read => simp

theorem ReadBack.of_append {front back : List Symbol} (whole : ReadBack (front ++ back)) :
    ReadBack front ∧ ReadBack back := by
  induction front with
  | nil => exact ⟨rfl, whole⟩
  | cons s front ih =>
    cases s with
    | char c =>
      rw [List.cons_append, readBack_char_cons] at whole
      obtain ⟨first, last⟩ := ih whole
      exact ⟨readBack_char_cons.2 first, last⟩
    | bad byte =>
      rw [List.cons_append, readBack_bad_cons, List.flatMap_append] at whole
      obtain ⟨first, last⟩ := ih whole.2
      exact ⟨readBack_bad_cons.2 ⟨char?_eq_none_of_append whole.1, first⟩, last⟩

/-- A byte below the continuation bytes is never a bad one. -/
theorem ReadBack.le_of_mem_bad {symbols : List Symbol} (back : ReadBack symbols) {byte : UInt8}
    (member : .bad byte ∈ symbols) : 0x80 ≤ byte := by
  obtain ⟨front, rest, rfl⟩ := List.append_of_mem member
  have nothing := (readBack_bad_cons.1 back.of_append.2).1
  rw [← UInt8.not_lt]
  intro small
  unfold char? at nothing
  rw [if_pos small] at nothing
  cases nothing

theorem length_bytes (s : Symbol) : s.bytes.length = s.width := by
  cases s with
  | bad byte => rfl
  | char c =>
    simp only [Symbol.bytes, Symbol.width, encodeChar, width]
    split
    · rfl
    split
    · rfl
    split
    · rfl
    · rfl

/-- The bytes of a character other than an ASCII character are above those of ASCII. -/
theorem le_of_mem_encodeChar {c : Char} (wide : 0x80 ≤ c.toNat) {byte : UInt8}
    (member : byte ∈ encodeChar c) : 0x80 ≤ byte := by
  have bound := toNat_lt c
  have narrow : ¬ c.toNat < 0x80 := Nat.not_lt.2 wide
  simp only [UInt8.le_iff_toNat_le, UInt8.toNat_ofNat]
  simp only [encodeChar, if_neg narrow] at member
  split at member
  case isTrue two =>
    simp only [List.mem_cons, List.not_mem_nil, or_false] at member
    rcases member with rfl | rfl <;> rw [toNat_toUInt8] <;> omega
  split at member
  case isTrue three =>
    simp only [List.mem_cons, List.not_mem_nil, or_false] at member
    rcases member with rfl | rfl | rfl <;> rw [toNat_toUInt8] <;> omega
  case isFalse four =>
    simp only [List.mem_cons, List.not_mem_nil, or_false] at member
    rcases member with rfl | rfl | rfl | rfl <;> rw [toNat_toUInt8] <;> omega

end CellMachine.Text.Utf8
