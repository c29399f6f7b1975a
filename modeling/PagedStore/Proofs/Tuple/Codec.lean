import PagedStore.Proofs.Schema
import PagedStore.Proofs.Text.Utf8
import PagedStore.Tuple

/-! Stored forms of values and tuples: their width, and what is read back from them. -/
namespace PagedStore

namespace Value

@[simp] theorem type_stored (v : Value) : v.stored.type = v.type := by
  cases v <;> rfl

@[simp] theorem stored_stored (v : Value) : v.stored.stored = v.stored := by
  cases v with
  | int number => rfl
  | text content => simp [stored]

/-- What a value has become in storage: numbers stay, and of a text the longest start that fits is left. -/
inductive Kept : Value → Value → Prop
  | int (number : Int32) : Kept (.int number) (.int number)
  | text {content kept : String} :
      Text.Utf8.LongestStart textCapacity content kept → Kept (.text content) (.text kept)

theorem kept_stored (v : Value) : v.Kept v.stored := by
  cases v with
  | int number => exact .int number
  | text content => exact .text (Text.Utf8.longestStart_clip textCapacity content)

@[simp] theorem encode_stored (v : Value) : v.stored.encode = v.encode := by
  cases v with
  | int number => rfl
  | text content => simp [stored, encode]

/-- A stored value takes the width of its type. -/
@[simp] theorem length_encode (v : Value) : v.encode.length = v.type.width := by
  cases v with
  | int number => rfl
  | text content =>
    have := Text.Utf8.length_encode_clip textCapacity content
    simp only [encode, type, ColumnType.width, List.length_append, Word.length_bytes,
      List.length_replicate]
    omega

private theorem toInt_length {n : Nat} (h : n ≤ textCapacity) :
    (UInt32.ofNat n).toInt32.toInt = n := by
  have bound : n ≤ 128 := h
  rw [UInt32.toInt32_ofNat', Int32.toInt_ofNat_of_lt (by omega)]

end Value

namespace ColumnType

private theorem decode_padded {kept rest : List UInt8} {content : String}
    (short : kept.length ≤ textCapacity) (h : Text.Utf8.decode kept = .ok content) :
    decode .text (Word.bytes (.ofNat kept.length) ++
      (kept ++ (List.replicate (textCapacity - kept.length) 0 ++ rest))) =
        .ok (.text content, rest) := by
  have length := Value.toInt_length short
  have whole : (kept ++ (List.replicate (textCapacity - kept.length) (0 : UInt8) ++ rest)).length =
      textCapacity + rest.length := by
    simp only [List.length_append, List.length_replicate]
    omega
  have after : (kept ++ (List.replicate (textCapacity - kept.length) (0 : UInt8) ++ rest)).drop
      textCapacity = rest := by
    rw [← List.append_assoc, List.drop_left']
    simp only [List.length_append, List.length_replicate]
    omega
  simp only [decode, Word.read?_bytes, length, whole, Int.toNat_natCast, List.take_left, h, after]
  rw [if_neg (by omega), if_neg (by omega)]

/-- A stored value is read back as what storage keeps of it, and the bytes after it are left. -/
private theorem decode_encode_append (v : Value) (rest : List UInt8) :
    v.type.decode (v.encode ++ rest) = .ok (v.stored, rest) := by
  cases v with
  | int number =>
    simp only [Value.encode, Value.type, decode, Word.read?_bytes]
    rfl
  | text content =>
    simp only [Value.encode, Value.type, List.append_assoc]
    exact decode_padded (Text.Utf8.length_encode_clip _ _) (Text.Utf8.decode_encode _)

private theorem type_of_decode {type : ColumnType} {bytes rest : List UInt8} {v : Value}
    (h : type.decode bytes = .ok (v, rest)) : v.type = type ∧ v.stored = v := by
  rw [decode] at h
  split at h
  · cases h
  · split at h
    · cases h
      exact ⟨rfl, rfl⟩
    · rename_i after _
      simp only at h
      split at h
      · cases h
      · split at h
        · cases h
        · split at h
          · rename_i inside _ content hd
            cases h
            refine ⟨rfl, congrArg Value.text (Text.Utf8.clip_eq_self_iff.mpr ?_)⟩
            rw [Text.Utf8.encode_of_decode hd, List.length_take]
            omega
          · cases h

end ColumnType

namespace Tuple

def IsTyped (t : Tuple) : Prop :=
  t.values.map Value.type = t.schema.types

private theorem types_of_misfit? {index : Nat} {types : List ColumnType} {values : List Value}
    (count : values.length = types.length) (h : misfit? index types values = none) :
    values.map Value.type = types := by
  induction types generalizing index values with
  | nil =>
    rw [List.eq_nil_of_length_eq_zero count]
    rfl
  | cons type types ih =>
    cases values with
    | nil => cases count
    | cons value values =>
      rw [misfit?] at h
      split at h
      · rename_i same
        rw [List.map_cons, same, ih (Nat.succ.inj count) h]
      · cases h

private theorem misfit?_of_types (index : Nat) (values : List Value) :
    misfit? index (values.map Value.type) values = none := by
  induction values generalizing index with
  | nil => rfl
  | cons value values ih => rw [List.map_cons, misfit?, if_pos rfl, ih]

/-- A tuple is made for a schema just of values that have its types. -/
theorem ofValues_eq_ok_iff {schema : Schema} {values : List Value} {t : Tuple} :
    ofValues schema values = .ok t ↔ values.map Value.type = schema.types ∧ t = ⟨schema, values, none⟩ := by
  have columns : schema.types.length = schema.columns.length := List.length_map _
  rw [ofValues]
  constructor
  · intro h
    split at h
    · cases h
    · rename_i count
      split at h
      · cases h
      · rename_i fits
        cases h
        exact ⟨types_of_misfit? ((Decidable.not_not.mp count).trans columns.symm) fits, rfl⟩
  · rintro ⟨typed, rfl⟩
    have count : values.length = schema.columns.length := by rw [← columns, ← typed, List.length_map]
    rw [if_neg (Decidable.not_not.mpr count), ← typed, misfit?_of_types]

/-- A tuple made for a schema has its types. -/
theorem isTyped_of_ofValues {schema : Schema} {values : List Value} {t : Tuple}
    (h : ofValues schema values = .ok t) : t.IsTyped := by
  obtain ⟨typed, rfl⟩ := ofValues_eq_ok_iff.mp h
  exact typed

@[simp] theorem isTyped_stored (t : Tuple) : t.stored.IsTyped ↔ t.IsTyped := by
  simp [IsTyped, stored, Function.comp_def]

@[simp] theorem encode_stored (t : Tuple) : t.stored.encode = t.encode := by
  simp [encode, stored, List.flatMap_map]

private theorem length_flatMap_encode (values : List Value) :
    (values.flatMap Value.encode).length = Schema.widthOf (values.map Value.type) := by
  induction values with
  | nil => rfl
  | cons value values ih => simp [Schema.widthOf, ih]

/-- A stored tuple takes the width of its schema. -/
theorem IsTyped.length_encode {t : Tuple} (h : t.IsTyped) : t.encode.length = t.schema.width := by
  rw [encode, length_flatMap_encode, h, Schema.width]

private theorem decodeValues_encode_append (values : List Value) (rest : List UInt8) :
    decodeValues (values.map Value.type) (values.flatMap Value.encode ++ rest) =
      .ok (values.map Value.stored, rest) := by
  induction values with
  | nil => rfl
  | cons value values ih =>
    rw [List.map_cons, List.flatMap_cons, List.append_assoc, decodeValues,
      ColumnType.decode_encode_append]
    simp only [ih, List.map_cons]

private theorem types_of_decodeValues {types : List ColumnType} {bytes rest : List UInt8}
    {values : List Value} (h : decodeValues types bytes = .ok (values, rest)) :
    values.map Value.type = types ∧ values.map Value.stored = values := by
  induction types generalizing bytes values with
  | nil =>
    cases h
    exact ⟨rfl, rfl⟩
  | cons type types ih =>
    rw [decodeValues] at h
    split at h
    · cases h
    · rename_i hd
      split at h
      · cases h
      · rename_i hr
        cases h
        obtain ⟨ht, hs⟩ := ColumnType.type_of_decode hd
        obtain ⟨iht, ihs⟩ := ih hr
        exact ⟨by rw [List.map_cons, ht, iht], by rw [List.map_cons, hs, ihs]⟩

/-- A typed tuple is read back, under any schema that agrees with its own, as what storage keeps. -/
theorem IsTyped.decode_encode_append {t : Tuple} (h : t.IsTyped) {schema : Schema}
    (agrees : t.schema.agrees schema) (rest : List UInt8) :
    decode schema (t.encode ++ rest) = .ok (⟨schema, t.stored.values, none⟩, rest) := by
  have same : schema.types = t.values.map Value.type := by
    rw [h]
    exact (Schema.types_eq_of_agrees agrees).symm
  rw [decode, same, encode, decodeValues_encode_append]
  rfl

/-- What a tuple that was read is like: of the schema, stored nowhere yet, and kept whole. -/
theorem eq_of_decode {schema : Schema} {bytes rest : List UInt8} {t : Tuple}
    (h : decode schema bytes = .ok (t, rest)) :
    t.schema = schema ∧ t.IsTyped ∧ t.stored = t := by
  rw [decode] at h
  split at h
  · cases h
  · rename_i hd
    cases h
    obtain ⟨ht, hs⟩ := types_of_decodeValues hd
    refine ⟨rfl, ht, ?_⟩
    simp only [stored, hs]

theorem record_of_decode {schema : Schema} {bytes rest : List UInt8} {t : Tuple}
    (h : decode schema bytes = .ok (t, rest)) : t.record = none := by
  rw [decode] at h
  split at h <;> cases h
  rfl

end Tuple

end PagedStore
