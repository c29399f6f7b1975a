import PagedStore.Value

/-!
Schemas: the columns of a table, in order. Names are optional and play no part in agreement.
-/
namespace PagedStore

structure Column where
  type : ColumnType
  name : Option String
deriving DecidableEq

structure Schema where
  columns : List Column
deriving DecidableEq

def Column.render (c : Column) : String :=
  c.type.name ++ "(" ++ c.name.getD "" ++ ")"

namespace Schema

def ofNames : List ColumnType → List String → List Column
  | [], _ => []
  | type :: types, [] => ⟨type, none⟩ :: ofNames types []
  | type :: types, name :: names => ⟨type, some name⟩ :: ofNames types names

def named (types : List ColumnType) (names : List String) : Schema :=
  ⟨ofNames types names⟩

def nameless (types : List ColumnType) : Schema :=
  named types []

def types (s : Schema) : List ColumnType :=
  s.columns.map Column.type

def widthOf : List ColumnType → Nat
  | [] => 0
  | type :: types => type.width + widthOf types

def width (s : Schema) : Nat :=
  widthOf s.types

def append (s t : Schema) : Schema :=
  ⟨s.columns ++ t.columns⟩

def position? (s : Schema) (name : String) : Option Nat :=
  s.columns.findIdx? (·.name = some name)

def agrees (s t : Schema) : Bool :=
  s.types == t.types

def render (s : Schema) : String :=
  ", ".intercalate (s.columns.map Column.render)

end Schema

end PagedStore
