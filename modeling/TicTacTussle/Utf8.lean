import Mathlib.Data.List.Basic
import Mathlib.Data.Nat.Notation

/-!
# Lossy UTF-8

Any byte string decodes to some characters when every ill-formed stretch stands for one
replacement character.  A stretch is the longest start of a well-formed character, or a single
byte where none starts.  The main result says what a text cut after a number of bytes decodes to:
its whole characters, and a replacement for the one the cut goes through.
-/

namespace Utf8

/-- The replacement character. -/
def replacement : Char := '\uFFFD'

/-- The bytes of a text. -/
def encode (text : List Char) : List UInt8 := text.flatMap String.utf8EncodeChar

/-- What a leading byte announces: how many bytes it is owed, and the range of the next one. -/
structure Shape where
  /-- Bytes owed after the leading one. -/
  owed : ℕ
  /-- The least next byte. -/
  low : ℕ
  /-- The greatest next byte. -/
  high : ℕ

/-- The shape of a multi-byte character, by its leading byte. -/
def shape (lead : ℕ) : Option Shape :=
  if lead < 0xC2 then none
  else if lead < 0xE0 then some ⟨1, 0x80, 0xBF⟩
  -- The ranges leave out the overlong forms, the surrogates and what lies beyond the last plane.
  else if lead = 0xE0 then some ⟨2, 0xA0, 0xBF⟩
  else if lead = 0xED then some ⟨2, 0x80, 0x9F⟩
  else if lead < 0xF0 then some ⟨2, 0x80, 0xBF⟩
  else if lead = 0xF0 then some ⟨3, 0x90, 0xBF⟩
  else if lead < 0xF4 then some ⟨3, 0x80, 0xBF⟩
  else if lead = 0xF4 then some ⟨3, 0x80, 0x8F⟩
  else none

/-- How many of the owed bytes are there. -/
def continuation : ℕ → ℕ → ℕ → List UInt8 → ℕ
  | owed + 1, low, high, byte :: bytes =>
      if low ≤ byte.toNat ∧ byte.toNat ≤ high then continuation owed 0x80 0xBF bytes + 1 else 0
  | _, _, _, _ => 0

/-- The bytes that an ill-formed stretch has behind its leading byte. -/
def broken (lead : UInt8) (bytes : List UInt8) : ℕ :=
  match shape lead.toNat with
  | some found => continuation found.owed found.low found.high bytes
  | none => 0

/-- The character at the front of some bytes. -/
def front (bytes : List UInt8) : Option Char := bytes.toByteArray.utf8DecodeChar? 0

/-- Decode any bytes, replacing the ill-formed stretches. -/
def decodeLossy : List UInt8 → List Char
  | [] => []
  | lead :: bytes =>
      match front (lead :: bytes) with
      | some char => char :: decodeLossy (bytes.drop (char.utf8Size - 1))
      | none => replacement :: decodeLossy (bytes.drop (broken lead bytes))
termination_by bytes => bytes.length

@[simp]
theorem decodeLossy_nil : decodeLossy [] = [] := by rw [decodeLossy]

@[simp]
theorem encode_nil : encode [] = [] := rfl

theorem encode_cons (char : Char) (text : List Char) :
    encode (char :: text) = String.utf8EncodeChar char ++ encode text := rfl

theorem encode_append (text more : List Char) :
    encode (text ++ more) = encode text ++ encode more := List.flatMap_append

theorem front_encode (char : Char) (bytes : List UInt8) :
    front (String.utf8EncodeChar char ++ bytes) = some char := by
  rw [front, List.toByteArray_append]
  exact ByteArray.utf8DecodeChar?_utf8EncodeChar_append

theorem exists_of_front_eq_some {bytes : List UInt8} {char : Char}
    (found : front bytes = some char) :
    ∃ rest, bytes = String.utf8EncodeChar char ++ rest := by
  obtain ⟨rest, split⟩ := ByteArray.exists_of_utf8DecodeChar?_eq_some found
  refine ⟨rest.data.toList, ?_⟩
  have arrays := congrArg (fun array => array.data.toList) split
  simpa using arrays

theorem decodeLossy_char (char : Char) (bytes : List UInt8) :
    decodeLossy (String.utf8EncodeChar char ++ bytes) = char :: decodeLossy bytes := by
  have found := front_encode char bytes
  have size : (String.utf8EncodeChar char).length = char.utf8Size :=
    String.length_utf8EncodeChar char
  cases encoded : String.utf8EncodeChar char with
  | nil =>
      rw [encoded, List.length_nil] at size
      exact absurd size (Nat.ne_of_lt char.utf8Size_pos)
  | cons lead tail =>
      rw [encoded, List.cons_append] at found
      rw [encoded, List.length_cons] at size
      rw [List.cons_append, decodeLossy, found]
      have skipped : char.utf8Size - 1 = tail.length := by omega
      simp only [skipped, List.drop_left]

theorem decodeLossy_encode_append (text : List Char) (bytes : List UInt8) :
    decodeLossy (encode text ++ bytes) = text ++ decodeLossy bytes := by
  induction text with
  | nil => rfl
  | cons char text induction =>
      rw [encode_cons, List.append_assoc, decodeLossy_char, induction, List.cons_append]

theorem decodeLossy_encode (text : List Char) : decodeLossy (encode text) = text := by
  have whole := decodeLossy_encode_append text []
  rwa [decodeLossy_nil, List.append_nil, List.append_nil] at whole

theorem shape_two {value : ℕ} (above : 0x7F < value) (within : value ≤ 0x7FF) :
    shape (value / 64 % 32 + 0xC0) = some ⟨1, 0x80, 0xBF⟩ := by
  rw [shape, if_neg (by omega), if_pos (by omega)]

theorem shape_three {value : ℕ} (above : 0x7FF < value) (within : value ≤ 0xFFFF)
    (scalar : value < 0xD800 ∨ 0xDFFF < value) :
    ∃ low high, shape (value / 4096 % 16 + 0xE0) = some ⟨2, low, high⟩ ∧
      low ≤ value / 64 % 64 + 0x80 ∧ value / 64 % 64 + 0x80 ≤ high := by
  rw [shape, if_neg (by omega), if_neg (by omega)]
  by_cases first : value / 4096 % 16 + 0xE0 = 0xE0
  · rw [if_pos first]
    exact ⟨0xA0, 0xBF, rfl, by omega, by omega⟩
  rw [if_neg first]
  by_cases surrogates : value / 4096 % 16 + 0xE0 = 0xED
  · rw [if_pos surrogates]
    exact ⟨0x80, 0x9F, rfl, by omega, by omega⟩
  · rw [if_neg surrogates, if_pos (by omega)]
    exact ⟨0x80, 0xBF, rfl, by omega, by omega⟩

theorem shape_four {value : ℕ} (above : 0xFFFF < value) (within : value < 0x110000) :
    ∃ low high, shape (value / 262144 % 8 + 0xF0) = some ⟨3, low, high⟩ ∧
      low ≤ value / 4096 % 64 + 0x80 ∧ value / 4096 % 64 + 0x80 ≤ high := by
  rw [shape, if_neg (by omega), if_neg (by omega), if_neg (by omega), if_neg (by omega),
    if_neg (by omega)]
  by_cases first : value / 262144 % 8 + 0xF0 = 0xF0
  · rw [if_pos first]
    exact ⟨0x90, 0xBF, rfl, by omega, by omega⟩
  rw [if_neg first]
  by_cases last : value / 262144 % 8 + 0xF0 < 0xF4
  · rw [if_pos last]
    exact ⟨0x80, 0xBF, rfl, by omega, by omega⟩
  · rw [if_neg last, if_pos (by omega)]
    exact ⟨0x80, 0x8F, rfl, by omega, by omega⟩

/-- The bytes continue a character of this shape. -/
def Continues (owed low high : ℕ) (bytes : List UInt8) : Prop :=
  continuation owed low high bytes = bytes.length

theorem Continues.nil (owed low high : ℕ) : Continues owed low high [] := by
  rw [Continues]
  cases owed <;> rfl

theorem toNat_byte {value : ℕ} (small : value < 256) : (UInt8.ofNat value).toNat = value := by
  rw [UInt8.toNat_ofNat', Nat.mod_eq_of_lt small]

theorem Continues.cons {owed low high value : ℕ} {bytes : List UInt8}
    (small : value < 256) (least : low ≤ value) (greatest : value ≤ high)
    (continues : Continues owed 0x80 0xBF bytes) :
    Continues (owed + 1) low high (UInt8.ofNat value :: bytes) := by
  rw [Continues, continuation, toNat_byte small, if_pos ⟨least, greatest⟩, List.length_cons,
    continues]

theorem Continues.tail {owed : ℕ} (value : ℕ) {bytes : List UInt8}
    (continues : Continues owed 0x80 0xBF bytes) :
    Continues (owed + 1) 0x80 0xBF (UInt8.ofNat (value % 64 + 0x80) :: bytes) :=
  continues.cons (by omega) (by omega) (by omega)

theorem Continues.take {owed low high : ℕ} {bytes : List UInt8}
    (continues : Continues owed low high bytes) (count : ℕ) :
    Continues owed low high (bytes.take count) := by
  induction bytes generalizing owed low high count with
  | nil =>
      rw [List.take_nil]
      exact continues
  | cons byte bytes induction =>
      cases count with
      | zero => exact .nil owed low high
      | succ count =>
          cases owed with
          | zero => exact absurd continues (by simp [Continues, continuation])
          | succ owed =>
              rw [Continues, continuation] at continues
              split at continues
              case isTrue inRange =>
                have rest := induction (Nat.succ_inj.mp continues) count
                rw [Continues] at rest
                rw [Continues, List.take_succ_cons, continuation, if_pos inRange, rest,
                  List.length_cons]
              case isFalse => exact absurd continues (by simp)

/-- The bytes of a character continue the shape its leading byte announces. -/
theorem encode_continues {char : Char} (multi : 1 < char.utf8Size) :
    ∃ lead found bytes, String.utf8EncodeChar char = lead :: bytes ∧
      shape lead.toNat = some found ∧ Continues found.owed found.low found.high bytes := by
  obtain ⟨value, isValue⟩ : ∃ value, char.val.toNat = value := ⟨_, rfl⟩
  have scalar : value < 0xD800 ∨ (0xDFFF < value ∧ value < 0x110000) := by
    have valid := char.valid
    rw [UInt32.isValidChar, isValue] at valid
    exact valid
  have above : 0x7F < value := by
    have single := Char.utf8Size_eq_one_iff (c := char)
    rw [UInt32.le_iff_toNat_le, isValue] at single
    by_contra small
    exact Nat.ne_of_gt multi (single.mpr (Nat.le_of_not_lt small))
  rw [String.utf8EncodeChar, isValue]
  rw [if_neg (by omega)]
  by_cases two : value ≤ 0x7FF
  · rw [if_pos two]
    refine ⟨_, ⟨1, 0x80, 0xBF⟩, _, rfl, ?_, (Continues.nil 0 0x80 0xBF).tail value⟩
    rw [toNat_byte (by omega)]
    exact shape_two above two
  rw [if_neg two]
  by_cases three : value ≤ 0xFFFF
  · obtain ⟨low, high, found, least, greatest⟩ :=
      shape_three (by omega) three (scalar.imp_right And.left)
    rw [if_pos three]
    refine ⟨_, ⟨2, low, high⟩, _, rfl, ?_, ?_⟩
    · rw [toNat_byte (by omega)]
      exact found
    · exact ((Continues.nil 0 0x80 0xBF).tail value).cons (by omega) least greatest
  · have beyond : 0xFFFF < value := Nat.lt_of_not_le three
    obtain ⟨low, high, found, least, greatest⟩ := shape_four beyond (by omega)
    rw [if_neg three]
    refine ⟨_, ⟨3, low, high⟩, _, rfl, ?_, ?_⟩
    · rw [toNat_byte (by omega)]
      exact found
    · exact (((Continues.nil 0 0x80 0xBF).tail value).tail (value / 64)).cons (by omega)
        least greatest

/-- Too few bytes of a character are no character. -/
theorem front_take {char : Char} {count : ℕ} (short : count < char.utf8Size) :
    front ((String.utf8EncodeChar char).take count) = none := by
  cases found : front ((String.utf8EncodeChar char).take count) with
  | none => rfl
  | some other =>
      obtain ⟨rest, split⟩ := exists_of_front_eq_some found
      -- The whole character would start with the other one, so the two are the same.
      have whole : String.utf8EncodeChar char =
          String.utf8EncodeChar other ++ (rest ++ (String.utf8EncodeChar char).drop count) := by
        rw [← List.append_assoc, ← split, List.take_append_drop]
      have first := front_encode char []
      rw [List.append_nil, whole, front_encode] at first
      rw [Option.some.inj first] at split
      have lengths := congrArg List.length split
      rw [List.length_take, List.length_append, String.length_utf8EncodeChar] at lengths
      omega

theorem decodeLossy_take {char : Char} {count : ℕ} (positive : 0 < count)
    (short : count < char.utf8Size) :
    decodeLossy ((String.utf8EncodeChar char).take count) = [replacement] := by
  have multi : 1 < char.utf8Size := Nat.lt_of_le_of_lt positive short
  obtain ⟨lead, found, bytes, encoded, shaped, continues⟩ := encode_continues multi
  have none := front_take short
  obtain ⟨count, rfl⟩ := Nat.exists_eq_succ_of_ne_zero (Nat.ne_of_gt positive)
  rw [encoded, List.take_succ_cons] at none ⊢
  have all : broken lead (bytes.take count) = (bytes.take count).length := by
    rw [broken, shaped]
    exact continues.take count
  rw [decodeLossy, none]
  simp only [all, List.drop_length, decodeLossy_nil]

/-- A limit on the bytes falls inside this character of a text. -/
def CutAt (limit : ℕ) (text : List Char) (char : Char) : Prop :=
  ∃ before after, text = before ++ char :: after ∧
    (encode before).length < limit ∧ limit < (encode before).length + char.utf8Size

theorem CutAt.lt_length {limit : ℕ} {text : List Char} {char : Char}
    (cut : CutAt limit text char) : limit < (encode text).length := by
  obtain ⟨before, after, rfl, -, greatest⟩ := cut
  rw [encode_append, encode_cons, List.length_append, List.length_append,
    String.length_utf8EncodeChar]
  omega

/-- A limit falls between two characters or inside one. -/
theorem whole_or_cut (limit : ℕ) (text : List Char) :
    (∃ before after, text = before ++ after ∧ (encode text).take limit = encode before) ∨
      ∃ char, CutAt limit text char := by
  induction text generalizing limit with
  | nil => exact .inl ⟨[], [], rfl, List.take_nil⟩
  | cons char text induction =>
      have size : (String.utf8EncodeChar char).length = char.utf8Size :=
        String.length_utf8EncodeChar char
      by_cases empty : limit = 0
      · rw [empty]
        exact .inl ⟨[], char :: text, rfl, List.take_zero⟩
      by_cases short : limit < char.utf8Size
      · refine .inr ⟨char, [], text, rfl, Nat.pos_of_ne_zero empty, ?_⟩
        rw [encode_nil, List.length_nil, Nat.zero_add]
        exact short
      have longer : char.utf8Size ≤ limit := Nat.le_of_not_lt short
      rcases induction (limit - char.utf8Size) with
        ⟨before, after, split, taken⟩ | ⟨other, before, after, split, least, greatest⟩
      · refine .inl ⟨char :: before, after, by rw [split, List.cons_append], ?_⟩
        rw [encode_cons, List.take_append, size, taken, List.take_of_length_le (by omega),
          encode_cons]
      · refine .inr ⟨other, char :: before, after, by rw [split, List.cons_append], ?_⟩
        rw [encode_cons, List.length_append, size]
        omega

/-- The text before a cut, and what the cut character decodes to. -/
theorem decodeLossy_take_cut {limit : ℕ} {before after : List Char} {char : Char}
    (least : (encode before).length < limit)
    (greatest : limit < (encode before).length + char.utf8Size) :
    decodeLossy ((encode (before ++ char :: after)).take limit) = before ++ [replacement] := by
  have size : (String.utf8EncodeChar char).length = char.utf8Size :=
    String.length_utf8EncodeChar char
  rw [encode_append, encode_cons, List.take_append, List.take_of_length_le (Nat.le_of_lt least),
    List.take_append_of_le_length (by omega), decodeLossy_encode_append,
    decodeLossy_take (by omega) (by omega)]

/-- Cut bytes decode to a start of the text, unless the cut goes through a character. -/
theorem decodeLossy_take_prefix_iff {limit : ℕ} {text : List Char} :
    decodeLossy ((encode text).take limit) <+: text ↔
      ∀ char, CutAt limit text char → char = replacement := by
  constructor
  · rintro start char ⟨before, after, rfl, least, greatest⟩
    rw [decodeLossy_take_cut least greatest, List.prefix_append_right_inj,
      List.cons_prefix_cons] at start
    exact start.1.symm
  · intro clean
    rcases whole_or_cut limit text with ⟨before, after, split, taken⟩ | ⟨char, cut⟩
    · rw [taken, decodeLossy_encode]
      exact ⟨after, split.symm⟩
    · have same := clean char cut
      obtain ⟨before, after, rfl, least, greatest⟩ := cut
      rw [decodeLossy_take_cut least greatest, same]
      exact ⟨after, by rw [List.append_assoc, List.singleton_append]⟩

/-- The UTF-8 bytes of a string. -/
def asBytes (text : String) : List UInt8 := text.toUTF8.data.toList

/-- Decode any bytes to a string, replacing the ill-formed stretches. -/
def fromUtf8Lossy (bytes : List UInt8) : String := String.ofList (decodeLossy bytes)

theorem asBytes_eq_encode (text : String) : asBytes text = encode text.toList := by
  rw [asBytes, String.toUTF8_eq_toByteArray, ← String.utf8Encode_toList, List.utf8Encode, encode,
    List.data_toByteArray]

@[simp]
theorem toList_fromUtf8Lossy (bytes : List UInt8) :
    (fromUtf8Lossy bytes).toList = decodeLossy bytes := String.toList_ofList

theorem fromUtf8Lossy_asBytes (text : String) : fromUtf8Lossy (asBytes text) = text := by
  rw [fromUtf8Lossy, asBytes_eq_encode, decodeLossy_encode, String.ofList_toList]

end Utf8
