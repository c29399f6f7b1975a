import PagedStore.Page.Layout
import PagedStore.Tuple

/-!
Pages of fixed-width tuples. A page is read from its image and written back to one; in between,
tuples fill the first free slot and leave the slot that their record names.
-/
namespace PagedStore

/-- A page in memory. The spare bits are those of the header beyond the last slot, kept as read. -/
structure Page where
  id : PageId
  schema : Schema
  size : Nat
  slots : List (Option Tuple)
  spare : List Bool
  changedBy : Option TxnId
deriving DecidableEq

namespace Page

def blankImage (size : Nat) : List UInt8 :=
  List.replicate size 0

def readSlot (id : PageId) (schema : Schema) (slotBytes : Nat → List UInt8) (used : Bool)
    (slot : Nat) : Except Fault (Option Tuple) :=
  if used then
    match Tuple.decode schema (slotBytes slot) with
    | .error cause => .error (.badImage id (.slot slot cause))
    | .ok (tuple, _) => .ok (some { tuple with record := some ⟨id, slot⟩ })
  else .ok none

/-- Reads the slots that the header bits stand for, up to the first that cannot be read. -/
def readSlots (id : PageId) (schema : Schema) (slotBytes : Nat → List UInt8) (marks : List Bool) :
    Except Fault (List (Option Tuple)) :=
  marks.zipIdx.mapM fun (used, slot) => readSlot id schema slotBytes used slot

def ofImage (id : PageId) (schema : Schema) (image : List UInt8) : Except Fault Page :=
  let count := Layout.slotCount image.length schema
  if count = 0 then .error (.badImage id (.tooNarrow schema.width image.length))
  else
    let marks := Bits.ofBytes (image.take (Layout.headerBytes count))
    let bytes := image.toArray
    match readSlots id schema (Layout.slotBytes schema count bytes) (marks.take count) with
    | .error fault => .error fault
    | .ok slots => .ok ⟨id, schema, image.length, slots, marks.drop count, none⟩

def header (p : Page) : List UInt8 :=
  Bits.toBytes (p.slots.map Option.isSome ++ p.spare)

def slotImage (p : Page) : Option Tuple → List UInt8
  | some tuple => tuple.encode
  | none => List.replicate p.schema.width 0

def body (p : Page) : List UInt8 :=
  p.header ++ p.slots.flatMap p.slotImage

def image (p : Page) : List UInt8 :=
  p.body ++ List.replicate (p.size - p.body.length) 0

def tuple? (p : Page) (slot : Nat) : Option Tuple :=
  p.slots[slot]?.join

def isUsed (p : Page) (slot : Nat) : Bool :=
  (p.tuple? slot).isSome

def freeCount (p : Page) : Nat :=
  p.slots.countP Option.isNone

def usedSlots (p : Page) : List Nat :=
  (p.slots.zipIdx.filter fun (content, _) => content.isSome).map Prod.snd

def tuples (p : Page) : List Tuple :=
  p.slots.filterMap fun slot => slot

/-- Whether some transaction has changed the page since it was last in step with its file. -/
def isDirty (p : Page) : Bool :=
  p.changedBy.isSome

def changed (p : Page) (txn : TxnId) : Page :=
  { p with changedBy := some txn }

def cleaned (p : Page) : Page :=
  { p with changedBy := none }

/-- Puts a tuple into the first free slot. Returns the record that it is now, the tuple that was
passed, which names the record from then on, and the page. -/
def put (p : Page) (tuple : Tuple) : Except Fault RecordId × Tuple × Page :=
  if tuple.schema.agrees p.schema then
    match p.slots.findIdx? Option.isNone with
    | none => (.error (.pageFull p.id), tuple, p)
    | some slot =>
      let record : RecordId := ⟨p.id, slot⟩
      let tuple := { tuple with record := some record }
      (.ok record, tuple, { p with slots := p.slots.set slot (some tuple) })
  else (.error (.schemaConflict p.id.table), tuple, p)

def delete (p : Page) (record : Option RecordId) : Except Fault Page :=
  match record with
  | none => .error (.noSuchRecord none)
  | some r =>
    if r.page = p.id ∧ p.isUsed r.slot then .ok { p with slots := p.slots.set r.slot none }
    else .error (.noSuchRecord (some r))

end Page

end PagedStore
