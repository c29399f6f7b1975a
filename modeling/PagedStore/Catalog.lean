import PagedStore.Table

/-!
The tables that a database knows, by number and by name.
-/
namespace PagedStore

structure CatalogEntry where
  table : Table
  name : String
  primaryKey : String
deriving DecidableEq

structure Catalog where
  entries : Std.ExtTreeMap TableId CatalogEntry
  names : Std.ExtTreeMap String TableId

namespace Catalog

def empty : Catalog :=
  ⟨∅, ∅⟩

def dropName (c : Catalog) (name : String) : Catalog :=
  match c.names[name]? with
  | none => c
  | some id => ⟨c.entries.erase id, c.names.erase name⟩

def dropId (c : Catalog) (id : TableId) : Catalog :=
  match c.entries[id]? with
  | none => c
  | some entry => ⟨c.entries.erase id, c.names.erase entry.name⟩

def add (c : Catalog) (table : Table) (name primaryKey : String) : Catalog :=
  let c := (c.dropName name).dropId table.id
  ⟨c.entries.insert table.id ⟨table, name, primaryKey⟩, c.names.insert name table.id⟩

def entry (c : Catalog) (id : TableId) : Except Fault CatalogEntry :=
  match c.entries[id]? with
  | none => .error (.unknownTable id)
  | some entry => .ok entry

def table (c : Catalog) (id : TableId) : Except Fault Table :=
  (c.entry id).map CatalogEntry.table

def id (c : Catalog) (name : String) : Except Fault TableId :=
  match c.names[name]? with
  | none => .error (.unknownName name)
  | some id => .ok id

def tables (c : Catalog) : List TableId :=
  c.entries.keys

def isRegistered (c : Catalog) (table : Table) : Bool :=
  c.entries[table.id]?.any fun entry => entry.table.serial = table.serial

end Catalog

end PagedStore
