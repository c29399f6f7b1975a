import PagedStore.Identity
import PagedStore.Schema
import PagedStore.Text.Quoted

/-!
Everything that can go wrong, as causes, and the wording of each cause.
-/
namespace PagedStore

inductive PageDefect where
  | tooNarrow (width size : Nat)
  | slot (index : Nat) (cause : DecodeFault)
  | described (text : String)
deriving DecidableEq

def PageDefect.message : PageDefect → String
  | tooNarrow width size => s!"{width}-byte tuples do not fit a {size}-byte page"
  | slot index cause => s!"slot {index}: {cause.message}"
  | described text => text

inductive Fault where
  | lockTimeout (txn : TxnId)
  | deadlock (txn : TxnId)
  | beyondEnd (page : PageId) (pages : Nat)
  | shortRead (page : PageId) (read expected : Nat)
  | badImage (page : PageId) (defect : PageDefect)
  | allDirty (cached : Nat)
  | pageFull (page : PageId)
  | noSuchRecord (record : Option RecordId)
  | schemaConflict (table : TableId)
  | unknownTable (table : TableId)
  | unknownName (name : String)
  | unknownColumn (name : String)
  | fieldCount (expected given : Nat)
  | fieldType (index : Nat) (given : ColumnType) (schema : Schema)
  | unstorable (value : Value) (index : Nat) (schema : Schema)
  | tooNarrow (width size : Nat)
  | foreignPage (page : PageId) (table : TableId)
  | imageSize (page : PageId) (given expected : Nat)
  | emptyStore (pageSize cachePages : Nat)
  | missingPath
  | directoryPath
deriving DecidableEq

namespace Fault

/-- Whether the fault ends a wait for a lock, so that the transaction has to be given up. -/
def abortsTransaction : Fault → Bool
  | lockTimeout _ => true
  | deadlock _ => true
  | _ => false

def message : Fault → String
  | lockTimeout txn => s!"{txn.render} aborted: lock wait timed out"
  | deadlock txn => s!"{txn.render} aborted: waits-for cycle detected"
  | beyondEnd page pages => s!"{page.render} is out of range, file has {pages} pages"
  | shortRead page read expected =>
    s!"short read on {page.render}: got {read} of {expected} bytes"
  | badImage page defect => s!"malformed page {page.render}: {defect.message}"
  | allDirty cached => s!"cannot evict: all {cached} cached pages are dirty"
  | pageFull page => s!"{page.render} has no empty slot"
  | noSuchRecord record => s!"tuple {RecordId.detailsOf record} not found"
  | schemaConflict table => s!"tuple schema does not match table {table}"
  | unknownTable table => s!"no table with id {table}"
  | unknownName name => s!"no table named {Text.Quoted.quote name}"
  | unknownColumn name => s!"no field named {Text.Quoted.quote name}"
  | fieldCount expected given => s!"expected {expected} fields, got {given}"
  | fieldType index given schema => s!"field {index} is {given.name}, schema is {schema.render}"
  | unstorable value index schema =>
    s!"cannot store {value.render} in field {index} of ({schema.render})"
  | tooNarrow width size => s!"{width}-byte tuples do not fit a {size}-byte page"
  | foreignPage page table => s!"{page.render} does not belong to table {table}"
  | imageSize page given expected =>
    s!"{page.render} image is {given} bytes, page size is {expected}"
  | emptyStore pageSize cachePages =>
    s!"page size and buffer pool size must be positive, got {pageSize} and {cachePages}"
  | missingPath => "no such file or directory"
  | directoryPath => "is a directory"

end Fault

def Schema.position (s : Schema) (name : String) : Except Fault Nat :=
  match s.position? name with
  | some i => .ok i
  | none => .error (.unknownColumn name)

end PagedStore
