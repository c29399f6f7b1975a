import PagedStore.Page
import PagedStore.Volume

/-!
Opened tables: the file of a table seen in pages of its schema.
-/
namespace PagedStore

/-- A table as opened. The serial number tells one opening from another of the same file. -/
structure Table where
  serial : Nat
  id : TableId
  schema : Schema
  pageSize : Nat
  fits : 0 < Layout.slotCount pageSize schema
deriving DecidableEq

namespace Table

theorem pageSize_pos (t : Table) : 0 < t.pageSize := by
  refine Nat.pos_of_ne_zero fun none_left => ?_
  have := t.fits
  simp [Layout.slotCount, none_left] at this

def openAt (v : Volume) (serial : Nat) (place : Place) (schema : Schema) (pageSize : Nat) :
    Except Fault (Table × Volume) :=
  if fits : 0 < Layout.slotCount pageSize schema then
    match v.create place with
    | .error fault => .error fault
    | .ok (id, v) => .ok (⟨serial, id, schema, pageSize, fits⟩, v)
  else .error (.tooNarrow schema.width pageSize)

def file (t : Table) (v : Volume) : PageFile :=
  ⟨t.pageSize, v.content t.id, t.pageSize_pos⟩

def pages (t : Table) (v : Volume) : Nat :=
  (t.file v).pages

def pageAt (t : Table) (position : Nat) : PageId :=
  ⟨t.id, pageNumber position⟩

def load (t : Table) (v : Volume) (page : PageId) : Except Fault Page :=
  if page.table = t.id then
    match (t.file v).read page t.pageSize with
    | .error fault => .error fault
    | .ok image => Page.ofImage page t.schema image
  else .error (.foreignPage page t.id)

def store (t : Table) (v : Volume) (page : Page) : Except Fault Volume :=
  match (t.file v).write page.id page.image with
  | .error fault => .error fault
  | .ok file => .ok (v.put t.id file.content)

def append (t : Table) (v : Volume) : PageId × Volume :=
  let (number, file) := (t.file v).append
  (⟨t.id, number⟩, v.put t.id file.content)

end Table

end PagedStore
