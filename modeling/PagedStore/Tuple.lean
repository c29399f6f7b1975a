import PagedStore.Fault

/-!
Tuples: the values of one row, typed by a schema, and the record they are stored as, if any.
-/
namespace PagedStore

/-- A row of values. One made by `ofValues` has the types of its schema. -/
structure Tuple where
  schema : Schema
  values : List Value
  record : Option RecordId
deriving DecidableEq

namespace Tuple

def misfit? (index : Nat) : List ColumnType → List Value → Option (Nat × ColumnType)
  | type :: types, value :: values =>
    if value.type = type then misfit? (index + 1) types values else some (index, value.type)
  | _, _ => none

def ofValues (schema : Schema) (values : List Value) : Except Fault Tuple :=
  if values.length ≠ schema.columns.length then
    .error (.fieldCount schema.columns.length values.length)
  else
    match misfit? 0 schema.types values with
    | some (index, given) => .error (.fieldType index given schema)
    | none => .ok ⟨schema, values, none⟩

def set (t : Tuple) (index : Nat) (value : Value) : Except Fault Tuple :=
  if t.schema.types[index]? = some value.type then
    .ok { t with values := t.values.set index value }
  else .error (.unstorable value index t.schema)

/-- Two tuples are the same row when their schemas agree and their values are equal, wherever they
are stored. -/
def sameRow (t u : Tuple) : Bool :=
  t.schema.agrees u.schema && t.values == u.values

def stored (t : Tuple) : Tuple :=
  { t with values := t.values.map Value.stored }

def encode (t : Tuple) : List UInt8 :=
  t.values.flatMap Value.encode

def decodeValues : List ColumnType → List UInt8 → Except DecodeFault (List Value × List UInt8)
  | [], bytes => .ok ([], bytes)
  | type :: types, bytes =>
    match type.decode bytes with
    | .error cause => .error cause
    | .ok (value, rest) =>
      match decodeValues types rest with
      | .error cause => .error cause
      | .ok (values, rest) => .ok (value :: values, rest)

def decode (schema : Schema) (bytes : List UInt8) : Except DecodeFault (Tuple × List UInt8) :=
  match decodeValues schema.types bytes with
  | .error cause => .error cause
  | .ok (values, rest) => .ok (⟨schema, values, none⟩, rest)

def render (t : Tuple) : String :=
  "\t".intercalate (t.values.map Value.render)

end Tuple

end PagedStore
