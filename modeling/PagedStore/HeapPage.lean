import PagedStore.Page

/-!
Pages that keep twice which of their slots are used: in the bits of the header, as in the image, and in the row of
slots. Whether a slot is used is read off the header.
-/
namespace PagedStore

structure HeapPage where
  id : PageId
  schema : Schema
  size : Nat
  count : Nat
  header : Array UInt8
  slots : List (Option Tuple)
  changedBy : Option TxnId
deriving DecidableEq

namespace HeapPage

def ofImage (id : PageId) (schema : Schema) (image : List UInt8) : Except Fault HeapPage :=
  let count := Layout.slotCount image.length schema
  if count = 0 then .error (.badImage id (.tooNarrow schema.width image.length))
  else
    let header := (image.take (Layout.headerBytes count)).toArray
    let slotBytes := Layout.slotBytes schema count image.toArray
    let read (slot : Nat) := Page.readSlot id schema slotBytes (Bits.isSet (header.getD (slot / 8) 0) slot) slot
    match (List.range count).mapM read with
    | .error fault => .error fault
    | .ok slots => .ok ⟨id, schema, image.length, count, header, slots, none⟩

def isUsed (p : HeapPage) (slot : Nat) : Bool :=
  slot < p.count && Bits.isSet (p.header.getD (slot / 8) 0) slot

def freeCount (p : HeapPage) : Nat :=
  (List.range p.count).countP fun slot => !p.isUsed slot

def usedSlots (p : HeapPage) : List Nat :=
  (List.range p.count).filter p.isUsed

def tuples (p : HeapPage) : List Tuple :=
  p.slots.filterMap fun slot => slot

def slotImage (p : HeapPage) : Option Tuple → List UInt8
  | some tuple => tuple.encode
  | none => List.replicate p.schema.width 0

def image (p : HeapPage) : List UInt8 :=
  let body := p.header.toList ++ p.slots.flatMap p.slotImage
  body ++ List.replicate (p.size - body.length) 0

def isDirty (p : HeapPage) : Bool :=
  p.changedBy.isSome

def changed (p : HeapPage) (txn : TxnId) : HeapPage :=
  { p with changedBy := some txn }

def cleaned (p : HeapPage) : HeapPage :=
  { p with changedBy := none }

def mark (p : HeapPage) (slot : Nat) (used : Bool) : HeapPage :=
  { p with header := p.header.modify (slot / 8) fun byte => Bits.put byte slot used }

/-- Puts a tuple into the first slot that the header shows as free. Returns the record that it is now, the tuple
that was passed, which names the record from then on, and the page. -/
def insert (p : HeapPage) (tuple : Tuple) : Except Fault RecordId × Tuple × HeapPage :=
  if tuple.schema.agrees p.schema then
    match (List.range p.count).find? fun slot => !p.isUsed slot with
    | none => (.error (.pageFull p.id), tuple, p)
    | some slot =>
      let record : RecordId := ⟨p.id, slot⟩
      let tuple := { tuple with record := some record }
      let p := p.mark slot true
      (.ok record, tuple, { p with slots := p.slots.set slot (some tuple) })
  else (.error (.schemaConflict p.id.table), tuple, p)

def delete (p : HeapPage) (record : Option RecordId) : Except Fault Unit × HeapPage :=
  match record with
  | none => (.error (.noSuchRecord none), p)
  | some r =>
    if r.page = p.id ∧ p.isUsed r.slot then
      let p := p.mark r.slot false
      (.ok (), { p with slots := p.slots.set r.slot none })
    else (.error (.noSuchRecord (some r)), p)

end HeapPage

end PagedStore
