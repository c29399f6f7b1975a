/-!
Words of four bytes, most significant byte first.
-/
namespace PagedStore.Word

def bytes (w : UInt32) : List UInt8 :=
  [.ofNat (w.toNat / 0x1000000), .ofNat (w.toNat / 0x10000), .ofNat (w.toNat / 0x100), .ofNat w.toNat]

def ofBytes (a b c d : UInt8) : UInt32 :=
  .ofNat (a.toNat * 0x1000000 + b.toNat * 0x10000 + c.toNat * 0x100 + d.toNat)

def read? : List UInt8 → Option (UInt32 × List UInt8)
  | a :: b :: c :: d :: rest => some (ofBytes a b c d, rest)
  | _ => none

@[simp] theorem length_bytes (w : UInt32) : (bytes w).length = 4 := rfl

private theorem ofBytes_bytes (w : UInt32) :
    ofBytes (.ofNat (w.toNat / 0x1000000)) (.ofNat (w.toNat / 0x10000)) (.ofNat (w.toNat / 0x100))
      (.ofNat w.toNat) = w := by
  apply UInt32.toNat_inj.1
  have := w.toNat_lt
  simp only [ofBytes, UInt32.toNat_ofNat', UInt8.toNat_ofNat']
  omega

@[simp] theorem read?_bytes (w : UInt32) (rest : List UInt8) :
    read? (bytes w ++ rest) = some (w, rest) := by
  simp only [bytes, List.cons_append, List.nil_append, read?, ofBytes_bytes]

theorem bytes_ofBytes (a b c d : UInt8) : bytes (ofBytes a b c d) = [a, b, c, d] := by
  have := a.toNat_lt
  have := b.toNat_lt
  have := c.toNat_lt
  have := d.toNat_lt
  simp only [bytes, ofBytes, UInt32.toNat_ofNat', List.cons.injEq, ← UInt8.toNat_inj,
    UInt8.toNat_ofNat', and_true]
  omega

end PagedStore.Word
