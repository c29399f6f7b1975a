import Mathlib.Data.List.Forall2
import PagedStore.Proofs.Tuple.Codec

/-! Schemas put together: tuples of the columns of one schema followed by those of another are tuples of the one
followed by tuples of the other. -/
namespace PagedStore

namespace Tuple

def append (t u : Tuple) : Tuple :=
  ⟨t.schema.append u.schema, t.values ++ u.values, none⟩

private theorem encode_append (t u : Tuple) : (t.append u).encode = t.encode ++ u.encode :=
  List.flatMap_append

private theorem ofValues_append {s t : Schema} {values values' : List Value} {first second : Tuple}
    (made : ofValues s values = .ok first) (made' : ofValues t values' = .ok second) :
    ofValues (s.append t) (values ++ values') = .ok (first.append second) := by
  obtain ⟨typed, rfl⟩ := ofValues_eq_ok_iff.mp made
  obtain ⟨typed', rfl⟩ := ofValues_eq_ok_iff.mp made'
  exact ofValues_eq_ok_iff.mpr ⟨by rw [List.map_append, typed, typed', Schema.types_append], rfl⟩

section Decode
variable (s t : Schema)

private theorem decodeValues_append (types types' : List ColumnType) (bytes : List UInt8) :
    decodeValues (types ++ types') bytes = (decodeValues types bytes).bind fun first =>
      (decodeValues types' first.2).map fun second => (first.1 ++ second.1, second.2) := by
  induction types generalizing bytes with
  | nil =>
    rw [List.nil_append, decodeValues, Except.bind]
    cases decodeValues types' bytes <;> rfl
  | cons type types ih =>
    rw [List.cons_append, decodeValues, decodeValues]
    cases type.decode bytes with
    | error cause => rfl
    | ok result =>
      simp only [ih]
      cases decodeValues types result.2 with
      | error cause => rfl
      | ok first =>
        simp only [Except.bind]
        cases decodeValues types' first.2 <;> rfl

private theorem decode_append (bytes : List UInt8) :
    decode (s.append t) bytes = (decode s bytes).bind fun first =>
      (decode t first.2).map fun second => (first.1.append second.1, second.2) := by
  rw [decode, Schema.types_append, decodeValues_append, decode]
  cases decodeValues s.types bytes with
  | error cause => rfl
  | ok first =>
    simp only [Except.bind, decode]
    cases decodeValues t.types first.2 <;> rfl

variable {s t} {bytes : List UInt8}

private theorem decode_append_eq_ok_iff {row : Tuple} {rest : List UInt8} :
    decode (s.append t) bytes = .ok (row, rest) ↔ ∃ first middle second,
      decode s bytes = .ok (first, middle) ∧ decode t middle = .ok (second, rest) ∧ row = first.append second := by
  rw [decode_append]
  rcases decode s bytes with cause | ⟨first, middle⟩
  · simp [Except.bind]
  · simp only [Except.bind, Except.ok.injEq, Prod.mk.injEq, and_assoc, exists_and_left, exists_eq_left']
    rcases decode t middle with cause | ⟨second, left⟩
    · simp [Except.map]
    · simp [Except.map, and_comm, eq_comm]

private theorem decode_append_eq_error_iff {cause : DecodeFault} :
    decode (s.append t) bytes = .error cause ↔ decode s bytes = .error cause ∨
      ∃ first middle, decode s bytes = .ok (first, middle) ∧ decode t middle = .error cause := by
  rw [decode_append]
  rcases decode s bytes with fault | ⟨first, middle⟩
  · simp [Except.bind]
  · simp only [Except.bind, reduceCtorEq, false_or, Except.ok.injEq, Prod.mk.injEq, and_assoc,
      exists_and_left, exists_eq_left']
    cases decode t middle <;> simp [Except.map]

end Decode

end Tuple

/-! ### Both together -/

namespace Schema

/-- Schemas agree just if their columns have the same types one by one, whatever their names. -/
private theorem agrees_iff {s t : Schema} : s.agrees t ↔
    List.Forall₂ (fun column other => column.type = other.type) s.columns t.columns := by
  rw [agrees_iff_types_eq, types, types, ← List.forall₂_eq_eq_eq, List.forall₂_map_left_iff,
    List.forall₂_map_right_iff]

/-- Whether tuples of the columns of two schemas are made, written and read as a tuple of the first one followed by a
tuple of the second, and columns are found in the first one before the second. -/
structure Joined (s t : Schema) : Prop where
  decode_iff : ∀ {bytes row rest}, Tuple.decode (s.append t) bytes = .ok (row, rest) ↔
    ∃ first middle second, Tuple.decode s bytes = .ok (first, middle) ∧
      Tuple.decode t middle = .ok (second, rest) ∧ row = first.append second
  decode_error_iff : ∀ {bytes cause}, Tuple.decode (s.append t) bytes = .error cause ↔
    Tuple.decode s bytes = .error cause ∨
      ∃ first middle, Tuple.decode s bytes = .ok (first, middle) ∧ Tuple.decode t middle = .error cause
  made : ∀ {values values' first second}, Tuple.ofValues s values = .ok first →
    Tuple.ofValues t values' = .ok second → Tuple.ofValues (s.append t) (values ++ values') = .ok (first.append second)
  encode_eq : ∀ first second : Tuple, (first.append second).encode = first.encode ++ second.encode
  width_eq : (s.append t).width = s.width + t.width
  length_eq : (s.append t).columns.length = s.columns.length + t.columns.length
  position_eq : ∀ name, (s.append t).position name =
    if s.Has name then s.position name else (t.position name).map (s.columns.length + ·)
  unknown_iff : ∀ {name fault}, (s.append t).position name = .error fault ↔
    fault = .unknownColumn name ∧ ¬ s.Has name ∧ ¬ t.Has name

private theorem joined (s t : Schema) : s.Joined t where
  decode_iff := Tuple.decode_append_eq_ok_iff
  decode_error_iff := Tuple.decode_append_eq_error_iff
  made := Tuple.ofValues_append
  encode_eq := Tuple.encode_append
  width_eq := s.width_append t
  length_eq := s.length_append t
  position_eq := s.position_append t
  unknown_iff := by
    intro name fault
    rw [position_eq_error_iff, has_append, not_or]

/-- Schemas can be put together in any grouping. Under both together, tuples are those of the first followed by those
of the second, and columns are found in the first one before the second. Agreement of schemas, which is up to the
names of their columns, is an equivalence, and goes over to schemas put together. -/
theorem joined_schemas (s t : Schema) : s.Joined t ∧ (∀ u, (s.append t).append u = s.append (t.append u)) ∧
    (∀ s' t', s.agrees s' → t.agrees t' → (s.append t).agrees (s'.append t')) ∧
    (Equivalence fun s t : Schema => s.agrees t = true) ∧
    ∀ s t : Schema, s.agrees t ↔
      List.Forall₂ (fun column other => column.type = other.type) s.columns t.columns :=
  ⟨s.joined t, s.append_assoc t, fun _ _ => agrees_append, agrees_equivalence, fun _ _ => agrees_iff⟩

def remark : Tuple :=
  ⟨named [.int, .text] ["a"], [.int 1, .text "x"], none⟩

def pair : Tuple :=
  ⟨named [.int, .int] ["a", "b"], [.int 2, .int 3], none⟩

/-- Both are read one after the other. Of two columns of one name the first one is found. -/
theorem joined_schemas_named :
    Tuple.decode (remark.schema.append pair.schema) (remark.encode ++ (pair.encode ++ [9])) =
      .ok (remark.append pair, [9]) ∧
    Tuple.decode (remark.schema.append pair.schema) [0, 0, 0, 1] = .error .endOfBytes ∧
    (remark.schema.append pair.schema).position "a" = .ok 0 ∧
    (remark.schema.append pair.schema).position "b" = .ok 3 ∧
    (remark.schema.append pair.schema).agrees ((nameless [.int, .text]).append (nameless [.int, .int])) := by
  obtain ⟨joined, -, congruent, -, -⟩ := joined_schemas remark.schema pair.schema
  refine ⟨joined.decode_iff.mpr ⟨remark, pair.encode ++ [9], pair, by decide +kernel, by decide +kernel, rfl⟩,
    joined.decode_error_iff.mpr (.inl (by decide +kernel)), ?_, ?_, congruent _ _ (by decide) (by decide)⟩
  · rw [joined.position_eq, if_pos (by decide)]
    decide
  · rw [joined.position_eq, if_neg (by decide)]
    decide

end Schema

end PagedStore
