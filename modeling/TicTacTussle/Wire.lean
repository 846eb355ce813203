import Mathlib.Algebra.Group.Nat.Defs
import Mathlib.Data.Nat.Notation

/-!
# Byte readers

A reader consumes a prefix of its input.  `Reads` says which bytes it accepts as which value,
whatever follows them, and composes along `bind`; the readers of a format are then correct by
construction.  The primitives are those of a variable-length little-endian format.
-/

namespace Wire

/-- A byte string. -/
abbrev Bytes := List UInt8

/-- Consume a prefix of the input, or fail with a message. -/
abbrev Reader (α : Type) := StateT Bytes (Except String) α

/-- The reader accepts these bytes as this value and leaves the rest alone. -/
def Reads {α : Type} (reader : Reader α) (bytes : Bytes) (value : α) : Prop :=
  ∀ rest, reader.run (bytes ++ rest) = .ok (value, rest)

/-- Read a whole value from the front of a message. -/
def Reader.decode {α : Type} (reader : Reader α) (bytes : Bytes) : Except String α :=
  (reader.run bytes).map Prod.fst

section Composition

variable {α β : Type} {reader : Reader α} {bytes : Bytes} {value : α}

theorem Reads.pure (value : α) : Reads (Pure.pure value) [] value := fun _ => rfl

theorem Reads.bind {next : α → Reader β} {more : Bytes} {result : β}
    (first : Reads reader bytes value) (second : Reads (next value) more result) :
    Reads (reader >>= next) (bytes ++ more) result := by
  intro rest
  rw [StateT.run_bind, List.append_assoc, first (more ++ rest)]
  exact second rest

theorem Reads.map (reads : Reads reader bytes value) (convert : α → β) :
    Reads (convert <$> reader) bytes (convert value) := by
  intro rest
  rw [StateT.run_map, reads rest]
  rfl

theorem Reads.decode (reads : Reads reader bytes value) : reader.decode bytes = .ok value := by
  have whole := reads []
  rw [List.append_nil] at whole
  rw [Reader.decode, whole]
  rfl

end Composition

/-- Take a number of bytes. -/
def take (count : ℕ) : Reader Bytes := fun input =>
  if input.length < count then .error "unexpected end"
  else .ok (input.take count, input.drop count)

theorem reads_take (bytes : Bytes) : Reads (take bytes.length) bytes bytes := by
  intro rest
  simp [StateT.run, take]

/-- The low bytes of a number, least significant first. -/
def littleEndian : ℕ → ℕ → Bytes
  | 0, _ => []
  | width + 1, value => UInt8.ofNat value :: littleEndian width (value / 256)

/-- The number of a little-endian byte string. -/
def ofLittleEndian : Bytes → ℕ
  | [] => 0
  | byte :: bytes => byte.toNat + 256 * ofLittleEndian bytes

@[simp]
theorem length_littleEndian (width value : ℕ) : (littleEndian width value).length = width := by
  induction width generalizing value with
  | zero => rfl
  | succ width induction => simp [littleEndian, induction]

theorem ofLittleEndian_littleEndian {width value : ℕ} (fits : value < 256 ^ width) :
    ofLittleEndian (littleEndian width value) = value := by
  induction width generalizing value with
  | zero =>
      rw [Nat.pow_zero] at fits
      exact (Nat.lt_one_iff.mp fits).symm
  | succ width induction =>
      have high : value / 256 < 256 ^ width := by
        rw [Nat.div_lt_iff_lt_mul (by decide), ← Nat.pow_succ]
        exact fits
      have low : (UInt8.ofNat value).toNat = value % 256 := by simp
      rw [littleEndian, ofLittleEndian, induction high, low]
      omega

/-- Read an integer of a number of bytes. -/
def fixed (width : ℕ) : Reader ℕ := ofLittleEndian <$> take width

theorem reads_fixed {width value : ℕ} (fits : value < 256 ^ width) :
    Reads (fixed width) (littleEndian width value) value := by
  have bytes := (reads_take (littleEndian width value)).map ofLittleEndian
  rw [length_littleEndian, ofLittleEndian_littleEndian fits] at bytes
  exact bytes

/-- Small values are their own byte; larger ones follow a tag naming their width. -/
def putVarint (value : ℕ) : Bytes :=
  if value < 251 then [UInt8.ofNat value]
  else if value < 256 ^ 2 then 251 :: littleEndian 2 value
  else if value < 256 ^ 4 then 252 :: littleEndian 4 value
  else 253 :: littleEndian 8 value

/-- Read a variable-length integer of at most a number of bytes. -/
def varint (width : ℕ) : Reader ℕ := do
  let tag ← fixed 1
  if tag < 251 then return tag
  else if tag = 251 ∧ 2 ≤ width then fixed 2
  else if tag = 252 ∧ 4 ≤ width then fixed 4
  else if tag = 253 ∧ 8 ≤ width then fixed 8
  else throw "invalid integer tag"

/-- A small value reads as an integer of any width. -/
theorem reads_varint_of_small {value : ℕ} (width : ℕ) (small : value < 251) :
    Reads (varint width) (putVarint value) value := by
  have tag : Reads (fixed 1) [UInt8.ofNat value] value :=
    reads_fixed (by omega : value < 256 ^ 1)
  rw [putVarint, if_pos small, ← List.append_nil [UInt8.ofNat value]]
  apply tag.bind
  rw [if_pos small]
  exact .pure value

theorem reads_varint {value : ℕ} (fits : value < 256 ^ 8) :
    Reads (varint 8) (putVarint value) value := by
  have tagged (tag : ℕ) (isByte : tag < 256 ^ 1) : Reads (fixed 1) [UInt8.ofNat tag] tag :=
    reads_fixed isByte
  by_cases small : value < 251
  · exact reads_varint_of_small 8 small
  rw [putVarint, if_neg small]
  by_cases fitsTwo : value < 256 ^ 2
  · have tag := tagged 251 (by omega)
    rw [if_pos fitsTwo]
    exact tag.bind (reads_fixed fitsTwo)
  rw [if_neg fitsTwo]
  by_cases fitsFour : value < 256 ^ 4
  · have tag := tagged 252 (by omega)
    rw [if_pos fitsFour]
    exact tag.bind (reads_fixed fitsFour)
  · have tag := tagged 253 (by omega)
    rw [if_neg fitsFour]
    exact tag.bind (reads_fixed fits)

/-- The UTF-8 bytes of a string behind their number. -/
def putString (text : String) : Bytes :=
  putVarint text.toUTF8.data.size ++ text.toUTF8.data.toList

/-- Read a length-prefixed UTF-8 string. -/
def string : Reader String := do
  let length ← varint 8
  let bytes ← take length
  match String.fromUTF8? ⟨bytes.toArray⟩ with
  | some text => return text
  | none => throw "invalid UTF-8"

theorem fromUTF8?_toUTF8 (text : String) : String.fromUTF8? text.toUTF8 = some text := by
  have valid : text.toUTF8.IsValidUTF8 := text.isValidUTF8
  rw [String.fromUTF8?, dif_pos valid]
  rfl

theorem reads_string {text : String} (fits : text.toUTF8.data.size < 256 ^ 8) :
    Reads string (putString text) text := by
  have bytes := reads_take text.toUTF8.data.toList
  rw [Array.length_toList] at bytes
  refine (reads_varint fits).bind ?_
  rw [← List.append_nil text.toUTF8.data.toList]
  refine bytes.bind ?_
  have whole : (⟨text.toUTF8.data.toList.toArray⟩ : ByteArray) = text.toUTF8 := rfl
  rw [whole, fromUTF8?_toUTF8]
  exact .pure text

end Wire
