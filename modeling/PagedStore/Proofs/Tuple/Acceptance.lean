import Mathlib.Data.List.Basic
import PagedStore.Proofs.Tuple.Codec

/-! Which bytes hold a tuple: there are enough of them, and every text has a length that is allowed and is
UTF-8. What follows a text in its field is not looked at, and is zero when the tuple is written again. -/
namespace PagedStore

namespace Word

def number (bytes : List UInt8) : Nat :=
  bytes.foldl (fun higher byte => higher * 256 + byte.toNat) 0

def signed (n : Nat) : Int :=
  if n < 0x80000000 then n else n - 0x100000000

private theorem toInt_eq_signed (w : UInt32) : w.toInt32.toInt = signed w.toNat := by
  have twos := BitVec.toInt_eq_toNat_cond w.toBitVec
  rw [signed]
  change w.toInt32.toInt = if 2 * w.toNat < 4294967296 then (w.toNat : Int) else w.toNat - 4294967296 at twos
  rw [twos]
  split <;> split <;> omega

private theorem number_bytes (w : UInt32) : number (bytes w) = w.toNat := by
  have := w.toNat_lt
  simp only [number, bytes, List.foldl_cons, List.foldl_nil, UInt8.toNat_ofNat']
  omega

private theorem exists_bytes_append {bytes : List UInt8} (long : 4 ≤ bytes.length) :
    ∃ w : UInt32, bytes = Word.bytes w ++ bytes.drop 4 := by
  rcases bytes with _ | ⟨a, _ | ⟨b, _ | ⟨c, _ | ⟨d, rest⟩⟩⟩⟩
  case cons.cons.cons.cons => exact ⟨ofBytes a b c d, by rw [bytes_ofBytes]; rfl⟩
  all_goals simp at long

private theorem read?_of_short {bytes : List UInt8} (short : bytes.length < 4) : read? bytes = none := by
  rcases bytes with _ | ⟨a, _ | ⟨b, _ | ⟨c, _ | ⟨d, rest⟩⟩⟩⟩
  case cons.cons.cons.cons =>
    simp only [List.length_cons] at short
    omega
  all_goals rfl

end Word

private theorem Text.Utf8.exists_decode_iff {bytes : List UInt8} :
    (∃ content, decode bytes = .ok content) ↔ bytes.toByteArray.IsValidUTF8 := by
  constructor
  · rintro ⟨content, read⟩
    exact ⟨content.toList, by rw [← encode_of_decode read]; rfl⟩
  · rintro ⟨cs, same⟩
    refine ⟨String.ofList cs, ?_⟩
    have same : bytes = cs.flatMap String.utf8EncodeChar := by
      simpa [List.utf8Encode] using congrArg (fun array => array.data.toList) same
    rw [same, ← encode_ofList, decode_encode]

/-! ### One field -/

section Field
variable (bytes : List UInt8)

def textLength : Int :=
  Word.signed (Word.number (bytes.take 4))

def textBytes : List UInt8 :=
  (bytes.drop 4).take (textLength bytes).toNat

/-- Whether bytes start with a text: its length fits into the field, and the bytes of that length are UTF-8. -/
structure HoldsText : Prop where
  length_nonneg : 0 ≤ textLength bytes
  length_le : textLength bytes ≤ textCapacity
  valid : (textBytes bytes).toByteArray.IsValidUTF8

/-- The bytes of a field at the start of others, with zeros in the place of those behind a text. -/
def ColumnType.cleared : ColumnType → List UInt8
  | int => bytes.take 4
  | text => bytes.take 4 ++ textBytes bytes ++ List.replicate (textCapacity - (textBytes bytes).length) 0

end Field

section Reading
variable (w : UInt32) (after : List UInt8)

@[simp] theorem textLength_bytes_append : textLength (Word.bytes w ++ after) = w.toInt32.toInt := by
  rw [textLength, List.take_left' (Word.length_bytes w), Word.number_bytes, Word.toInt_eq_signed]

@[simp] theorem textBytes_bytes_append :
    textBytes (Word.bytes w ++ after) = after.take w.toInt32.toInt.toNat := by
  rw [textBytes, textLength_bytes_append, List.drop_left' (Word.length_bytes w)]

end Reading

namespace ColumnType
variable {type : ColumnType} {bytes : List UInt8}

private theorem four_le_width (type : ColumnType) : 4 ≤ type.width := by
  cases type <;> decide

private theorem decode_of_short (short : bytes.length < 4) : type.decode bytes = .error .endOfBytes := by
  rw [decode, Word.read?_of_short short]

/-- A text is read where the field is there and the bytes of an allowed length decode. -/
private theorem decode_text_eq_ok_iff {w : UInt32} {after rest : List UInt8} {v : Value} :
    decode .text (Word.bytes w ++ after) = .ok (v, rest) ↔
      textCapacity ≤ after.length ∧ 0 ≤ w.toInt32.toInt ∧ w.toInt32.toInt ≤ textCapacity ∧
      ∃ content, Text.Utf8.decode (after.take w.toInt32.toInt.toNat) = .ok content ∧
        v = .text content ∧ rest = after.drop textCapacity := by
  simp only [decode, Word.read?_bytes]
  by_cases room : after.length < textCapacity
  · rw [if_pos room]
    refine iff_of_false (by rintro ⟨⟩) fun h => ?_
    omega
  rw [if_neg room, and_iff_right (Nat.le_of_not_lt room)]
  by_cases wrong : w.toInt32.toInt < 0 ∨ (textCapacity : Int) < w.toInt32.toInt
  · rw [if_pos wrong]
    refine iff_of_false (by rintro ⟨⟩) fun h => ?_
    omega
  rw [if_neg wrong, and_iff_right (by omega), and_iff_right (by omega)]
  cases Text.Utf8.decode (after.take w.toInt32.toInt.toNat) with
  | error fault => simp
  | ok content => simp [eq_comm]

/-- A field is read where there are enough bytes for it and a text has the form of one. -/
private theorem exists_decode_iff : (∃ v rest, type.decode bytes = .ok (v, rest)) ↔
    type.width ≤ bytes.length ∧ (type = .text → HoldsText bytes) := by
  rcases Nat.lt_or_ge bytes.length 4 with short | long
  · have := type.four_le_width
    rw [decode_of_short short]
    exact iff_of_false (by rintro ⟨_, _, ⟨⟩⟩) fun h => by omega
  obtain ⟨w, split⟩ := Word.exists_bytes_append long
  generalize bytes.drop 4 = after at split
  subst split
  cases type with
  | int => simp [decode, width]
  | text =>
    have form : HoldsText (Word.bytes w ++ after) ↔ 0 ≤ w.toInt32.toInt ∧ w.toInt32.toInt ≤ textCapacity ∧
        ∃ content, Text.Utf8.decode (after.take w.toInt32.toInt.toNat) = .ok content := by
      rw [Text.Utf8.exists_decode_iff, ← textBytes_bytes_append, ← textLength_bytes_append w after]
      constructor
      · rintro ⟨nonneg, le, valid⟩
        exact ⟨nonneg, le, valid⟩
      · rintro ⟨nonneg, le, valid⟩
        exact ⟨nonneg, le, valid⟩
    rw [form, width, List.length_append, Word.length_bytes, Nat.add_le_add_iff_left]
    simp only [decode_text_eq_ok_iff, true_implies]
    constructor
    · rintro ⟨v, rest, room, nonneg, le, content, read, -⟩
      exact ⟨room, nonneg, le, content, read⟩
    · rintro ⟨room, nonneg, le, content, read⟩
      exact ⟨_, _, room, nonneg, le, content, read, rfl, rfl⟩

private theorem eq_ofNat_of_toInt {w : UInt32} (nonneg : 0 ≤ w.toInt32.toInt) :
    w = .ofNat w.toInt32.toInt.toNat := by
  have := w.toNat_lt
  apply UInt32.toNat_inj.mp
  rw [UInt32.toNat_ofNat', Word.toInt_eq_signed] at *
  unfold Word.signed at *
  split at nonneg <;> omega

/-- Reading takes the bytes of the field, which are written again with zeros behind a text. -/
theorem eq_of_decode {v : Value} {rest : List UInt8} (h : type.decode bytes = .ok (v, rest)) :
    rest = bytes.drop type.width ∧ v.encode = type.cleared bytes := by
  have long : 4 ≤ bytes.length := Nat.le_trans type.four_le_width (exists_decode_iff.mp ⟨v, rest, h⟩).1
  obtain ⟨w, split⟩ := Word.exists_bytes_append long
  generalize bytes.drop 4 = after at split
  subst split
  cases type with
  | int =>
    rw [decode, Word.read?_bytes] at h
    cases h
    refine ⟨(List.drop_left' (Word.length_bytes w)).symm, ?_⟩
    rw [cleared, List.take_left' (Word.length_bytes w)]
    rfl
  | text =>
    obtain ⟨room, nonneg, le, content, read, rfl, rfl⟩ := decode_text_eq_ok_iff.mp h
    refine ⟨?_, ?_⟩
    · rw [width, ← List.drop_drop, List.drop_left' (Word.length_bytes w)]
    · have kept := Text.Utf8.encode_of_decode read
      have short : (after.take w.toInt32.toInt.toNat).length = w.toInt32.toInt.toNat := by
        rw [List.length_take]
        omega
      have whole : Text.Utf8.clip textCapacity content = content := by
        rw [Text.Utf8.clip_eq_self_iff, kept, short]
        omega
      simp only [Value.encode, whole, kept, cleared, textBytes_bytes_append, short,
        List.take_left' (Word.length_bytes w), ← eq_ofNat_of_toInt nonneg]

end ColumnType

def Schema.offset (schema : Schema) (column : Nat) : Nat :=
  widthOf (schema.types.take column)

namespace Tuple

/-! ### All fields -/

/-- The bytes of a tuple at the start of others, with zeros in the place of those behind each text. -/
def cleared : List ColumnType → List UInt8 → List UInt8
  | [], _ => []
  | type :: types, bytes => type.cleared bytes ++ cleared types (bytes.drop type.width)

private theorem exists_decodeValues_cons_iff {type : ColumnType} {types : List ColumnType}
    {bytes : List UInt8} :
    (∃ values rest, decodeValues (type :: types) bytes = .ok (values, rest)) ↔
      (∃ v rest, type.decode bytes = .ok (v, rest)) ∧
        ∃ values rest, decodeValues types (bytes.drop type.width) = .ok (values, rest) := by
  rw [decodeValues]
  cases read : type.decode bytes with
  | error cause => simp
  | ok result =>
    obtain ⟨v, rest⟩ := result
    obtain ⟨rfl, -⟩ := ColumnType.eq_of_decode read
    rw [and_iff_right ⟨v, _, rfl⟩]
    cases tail : decodeValues types (bytes.drop type.width) with
    | error cause => simp [tail]
    | ok others => exact iff_of_true ⟨v :: others.1, others.2, by simp only [tail]⟩ ⟨_, _, rfl⟩

private theorem exists_decodeValues_iff {types : List ColumnType} {bytes : List UInt8} :
    (∃ values rest, decodeValues types bytes = .ok (values, rest)) ↔
      Schema.widthOf types ≤ bytes.length ∧ ∀ column, types[column]? = some .text →
        HoldsText (bytes.drop (Schema.widthOf (types.take column))) := by
  induction types generalizing bytes with
  | nil => simp [decodeValues, Schema.widthOf]
  | cons type types ih =>
    rw [exists_decodeValues_cons_iff, ColumnType.exists_decode_iff, ih, List.length_drop, Schema.widthOf]
    constructor
    · rintro ⟨⟨room, first⟩, rest, others⟩
      refine ⟨by omega, fun column text => ?_⟩
      cases column with
      | zero => exact first (Option.some.inj text)
      | succ column =>
        rw [List.take_succ_cons, Schema.widthOf, ← List.drop_drop]
        exact others column text
    · rintro ⟨room, texts⟩
      refine ⟨⟨by omega, fun text => texts 0 (congrArg some text)⟩, by omega, fun column text => ?_⟩
      have later := texts (column + 1) text
      rwa [List.take_succ_cons, Schema.widthOf, ← List.drop_drop] at later

theorem eq_of_decodeValues {types : List ColumnType} {bytes rest : List UInt8} {values : List Value}
    (h : decodeValues types bytes = .ok (values, rest)) :
    rest = bytes.drop (Schema.widthOf types) ∧ values.flatMap Value.encode = cleared types bytes := by
  induction types generalizing bytes values with
  | nil =>
    cases h
    exact ⟨rfl, rfl⟩
  | cons type types ih =>
    rw [decodeValues] at h
    split at h
    · cases h
    · rename_i first
      obtain ⟨rfl, head⟩ := ColumnType.eq_of_decode first
      split at h
      · cases h
      · rename_i others
        cases h
        obtain ⟨rfl, tail⟩ := ih others
        exact ⟨List.drop_drop, by rw [List.flatMap_cons, head, tail, cleared]⟩

section Decoded
variable {schema : Schema} {bytes rest : List UInt8} {t : Tuple} (read : decode schema bytes = .ok (t, rest))
include read

private theorem decodeValues_of_decode : decodeValues schema.types bytes = .ok (t.values, rest) := by
  rw [decode] at read
  split at read
  · cases read
  · rename_i values
    cases read
    exact values

/-- A tuple that was read is written as it was found, with zeros behind its texts. -/
private theorem encode_of_decode : rest = bytes.drop schema.width ∧ t.encode = cleared schema.types bytes :=
  eq_of_decodeValues (decodeValues_of_decode read)

private theorem decode_encode_of_decode (after : List UInt8) :
    decode schema (t.encode ++ after) = .ok (t, after) := by
  obtain ⟨rfl, typed, whole⟩ := eq_of_decode read
  rw [typed.decode_encode_append t.schema.agrees_refl, whole, ← record_of_decode read]

end Decoded

/-- Bytes hold a tuple of a schema just if there are as many as it takes and at the place of every text column
there is a text. Those bytes are taken, and they are written again with zeros behind the texts, which gives the
same tuple when it is read. Bytes that hold a tuple hold the same row just if they agree where there is no
padding. -/
theorem bytes_decided (schema : Schema) (bytes : List UInt8) :
    ((∃ t rest, decode schema bytes = .ok (t, rest)) ↔ schema.width ≤ bytes.length ∧
      ∀ column, schema.types[column]? = some .text → HoldsText (bytes.drop (schema.offset column))) ∧
    ∀ t rest, decode schema bytes = .ok (t, rest) →
      rest = bytes.drop schema.width ∧ t.encode = cleared schema.types bytes ∧
      (∀ after, decode schema (t.encode ++ after) = .ok (t, after)) ∧
      ∀ other u left, decode schema other = .ok (u, left) →
        (t.sameRow u ↔ cleared schema.types bytes = cleared schema.types other) := by
  refine ⟨?accepted, fun t rest read => ?_⟩
  case accepted =>
    refine Iff.trans ⟨?_, ?_⟩ exists_decodeValues_iff
    · rintro ⟨t, rest, read⟩
      exact ⟨t.values, rest, decodeValues_of_decode read⟩
    · rintro ⟨values, rest, read⟩
      exact ⟨⟨schema, values, none⟩, rest, by rw [decode, read]⟩
  obtain ⟨taken, written⟩ := encode_of_decode read
  refine ⟨taken, written, decode_encode_of_decode read, fun other u left read' => ?_⟩
  rw [← written, ← (encode_of_decode read').2]
  constructor
  · intro same
    rw [sameRow, Bool.and_eq_true, beq_iff_eq] at same
    rw [encode, encode, same.2]
  · intro same
    -- What is written tells the tuple, since it is read back.
    have back := decode_encode_of_decode read []
    rw [same, decode_encode_of_decode read' []] at back
    cases back
    rw [sameRow, beq_self_eq_true, Bool.and_true]
    exact beq_self_eq_true t.schema.types

/-- The bytes of a number and of a text of one character, with the given byte as padding, and one more byte. -/
def padded (padding : UInt8) : List UInt8 :=
  [0xFF, 0xFF, 0xFF, 0xFF, 0, 0, 0, 2, 0xC3, 0xA9] ++ List.replicate 126 padding ++ [7]

def paddedRow : Tuple :=
  ⟨.nameless [.int, .text], [.int (-1), .text "é"], none⟩

/-- Whatever stands behind the text, it is the same row, and zeros are written there. -/
theorem bytes_decided_padded :
    decode (.nameless [.int, .text]) (padded 0xAA) = .ok (paddedRow, [7]) ∧
    decode (.nameless [.int, .text]) (padded 0xC3) = .ok (paddedRow, [7]) ∧
    paddedRow.encode ++ [7] = padded 0 ∧
    cleared [.int, .text] (padded 0xAA) = cleared [.int, .text] (padded 0xC3) := by
  have read : decode (.nameless [.int, .text]) (padded 0xAA) = .ok (paddedRow, [7]) := by decide +kernel
  have other : decode (.nameless [.int, .text]) (padded 0xC3) = .ok (paddedRow, [7]) := by decide +kernel
  obtain ⟨-, written, -, same⟩ := (bytes_decided (.nameless [.int, .text]) (padded 0xAA)).2 _ _ read
  refine ⟨read, other, ?_, (same _ _ _ other).mp (by decide)⟩
  rw [written]
  decide +kernel

end Tuple

end PagedStore
