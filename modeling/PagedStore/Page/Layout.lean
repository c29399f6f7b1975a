import PagedStore.Bits
import PagedStore.Schema

/-!
How a page is divided: a header with one bit per slot, in whole bytes, then the slots, then padding.
-/
namespace PagedStore.Layout

/-- How many slots a page has. A slot costs its tuple's width and one bit of the header. -/
def slotCount (size : Nat) (schema : Schema) : Nat :=
  size * 8 / (schema.width * 8 + 1)

def headerBytes (slots : Nat) : Nat :=
  (slots + 7) / 8

def slotBytes (schema : Schema) (slots : Nat) (image : Array UInt8) (slot : Nat) : List UInt8 :=
  let start := headerBytes slots + slot * schema.width
  (image.extract start (start + schema.width)).toList

end PagedStore.Layout
