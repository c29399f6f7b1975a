import PagedStore.Identity
import PagedStore.PageFile

/-!
The files that tables are kept in. A table has the number of its file.
-/
namespace PagedStore

/-- What a path leads to: the place of a table's file, a directory, or nowhere. -/
inductive Place where
  | file (table : TableId)
  | directory
  | missing
deriving DecidableEq

def Place.table : Place → Except Fault TableId
  | file table => .ok table
  | directory => .error .directoryPath
  | missing => .error .missingPath

structure Volume where
  files : Std.ExtTreeMap TableId Content

namespace Volume

def empty : Volume :=
  ⟨∅⟩

def content (v : Volume) (table : TableId) : Content :=
  v.files[table]?.getD .empty

def put (v : Volume) (table : TableId) (content : Content) : Volume :=
  ⟨v.files.insert table content⟩

def create (v : Volume) (place : Place) : Except Fault (TableId × Volume) :=
  match place.table with
  | .error fault => .error fault
  | .ok table => .ok (table, v.put table (v.content table))

/-- Cuts a file, or fills it up with zeros, to a length. The file is created if need be. -/
def setLength (v : Volume) (place : Place) (length : Nat) : Except Fault Volume :=
  match place.table with
  | .error fault => .error fault
  | .ok table => .ok (v.put table ((v.content table).resize length))

def patch (v : Volume) (place : Place) (offset : Nat) (bytes : List UInt8) : Except Fault Volume :=
  match place.table with
  | .error fault => .error fault
  | .ok table => .ok (v.put table ((v.content table).overwrite offset bytes))

end Volume

end PagedStore
