import PagedStore.Proofs.Page.Layout

/-! Single bits in rows of bytes: where they are, and how a mask changes one. -/
namespace PagedStore.Bits

/-- A bit of a row of bytes, counted from the low end of the first byte. There is none beyond the bytes. -/
def bit (bytes : List UInt8) (i : Nat) : Bool :=
  (bytes.getD (i / 8) 0).toNat.testBit (i % 8)

def mark (bytes : List UInt8) (i : Nat) (on : Bool) : List UInt8 :=
  bytes.modify (i / 8) fun byte => put byte i on

@[simp] theorem length_mark (bytes : List UInt8) (i : Nat) (on : Bool) :
    (mark bytes i on).length = bytes.length :=
  List.length_modify _ _ _

/-- The other bytes of a marked row are as before. -/
theorem getElem?_mark_of_ne {bytes : List UInt8} {i j : Nat} (on : Bool) (elsewhere : j ≠ i / 8) :
    (mark bytes i on)[j]? = bytes[j]? := by
  rw [mark, List.getElem?_modify]
  simp [Ne.symm elsewhere]

private theorem testBit_mask (i : Nat) {j : Nat} (h : j < 8) :
    (mask i).toNat.testBit j = decide (i % 8 = j) := by
  have small : i % 8 < 8 := Nat.mod_lt _ (by decide)
  have shift : (UInt8.ofNat (i % 8)).toNat % 8 = i % 8 := by
    rw [UInt8.toNat_ofNat']
    omega
  rw [mask, UInt8.toNat_shiftLeft, shift, UInt8.toNat_one, Nat.one_shiftLeft, Nat.testBit_mod_two_pow,
    Nat.testBit_two_pow]
  simp [h]

/-- A bit is set if the byte shares it with the mask. -/
theorem isSet_eq_bit (bytes : List UInt8) (i : Nat) : isSet (bytes.getD (i / 8) 0) i = bit bytes i := by
  have small : i % 8 < 8 := Nat.mod_lt _ (by decide)
  rw [isSet, bit]
  generalize bytes.getD (i / 8) 0 = byte
  have shared {j : Nat} (h : j < 8) :
      (byte &&& mask i).toNat.testBit j = (byte.toNat.testBit j && decide (i % 8 = j)) := by
    rw [UInt8.toNat_and, Nat.testBit_and, testBit_mask i h]
  rw [Bool.eq_iff_iff, bne_iff_ne, ne_eq]
  constructor
  · refine fun some_bit => Decidable.byContradiction fun unset => some_bit ?_
    refine UInt8.toNat_inj.mp (Nat.eq_of_testBit_eq fun j => ?_)
    rw [UInt8.toNat_zero, Nat.zero_testBit]
    by_cases h : j < 8
    · rw [shared h]
      by_cases here : i % 8 = j
      · subst here
        simpa using unset
      · simp [here]
    · exact Nat.testBit_lt_two_pow (Nat.lt_of_lt_of_le (UInt8.toNat_lt _)
        (Nat.pow_le_pow_right (by decide) (Nat.le_of_not_lt h)))
  · intro set none_shared
    have none_there := shared small
    rw [none_shared, set] at none_there
    simp at none_there

private theorem testBit_not (byte : UInt8) {j : Nat} (h : j < 8) :
    (~~~byte).toNat.testBit j = !byte.toNat.testBit j := by
  rw [← UInt8.toNat_toBitVec, UInt8.toBitVec_not, ← BitVec.getLsbD, BitVec.getLsbD_not]
  simp [h, BitVec.getLsbD]

/-- A bit that is set or cleared by its mask is as wanted, and the others of its byte are as before. -/
private theorem testBit_put (byte : UInt8) (i : Nat) (on : Bool) {j : Nat} (h : j < 8) :
    (put byte i on).toNat.testBit j = if i % 8 = j then on else byte.toNat.testBit j := by
  rw [put]
  cases on with
  | true =>
    rw [if_pos rfl, UInt8.toNat_or, Nat.testBit_or, testBit_mask i h]
    by_cases same : i % 8 = j <;> simp [same]
  | false =>
    rw [if_neg Bool.false_ne_true, UInt8.toNat_and, Nat.testBit_and, testBit_not _ h, testBit_mask i h]
    by_cases same : i % 8 = j <;> simp [same]

/-- A marked bit is as marked, and all others are as before. -/
theorem bit_mark {bytes : List UInt8} {i : Nat} (inside : i < 8 * bytes.length) (on : Bool) (j : Nat) :
    bit (mark bytes i on) j = if i = j then on else bit bytes j := by
  have small : j % 8 < 8 := Nat.mod_lt _ (by decide)
  simp only [bit, mark, List.getD_eq_getElem?_getD, List.getElem?_modify]
  by_cases byte : i / 8 = j / 8
  · have held : bytes[j / 8]? = some bytes[j / 8] := List.getElem?_eq_getElem (by omega)
    simp only [byte, if_true, held, Option.map_eq_map, Option.map_some, Option.getD_some]
    rw [testBit_put _ _ _ small]
    have place : i % 8 = j % 8 ↔ i = j := by omega
    simp only [place]
  · simp only [byte, if_false, id_map']
    rw [if_neg (by rintro rfl; exact byte rfl)]

private theorem getElem?_ofNat {count k : Nat} (h : k < count) (n : Nat) :
    (ofNat count n)[k]? = some (n.testBit k) := by
  induction count generalizing k n with
  | zero => omega
  | succ count ih =>
    cases k with
    | zero => rw [ofNat, List.getElem?_cons_zero, Nat.testBit_zero]
    | succ k => rw [ofNat, List.getElem?_cons_succ, ih (by omega), Nat.testBit_succ]

/-- The bits of a row of bytes, one by one. -/
theorem getElem?_ofBytes {bytes : List UInt8} {i : Nat} (inside : i < 8 * bytes.length) :
    (ofBytes bytes)[i]? = some (bit bytes i) := by
  induction bytes generalizing i with
  | nil => exact absurd inside (Nat.not_lt_zero _)
  | cons byte bytes ih =>
    rw [ofBytes, List.flatMap_cons]
    by_cases first : i < 8
    · rw [List.getElem?_append_left (by rwa [length_ofNat]), getElem?_ofNat first]
      simp [bit, Nat.div_eq_of_lt first, Nat.mod_eq_of_lt first]
    · rw [List.getElem?_append_right (by rw [length_ofNat]; omega), length_ofNat]
      rw [List.length_cons] at inside
      have later := ih (i := i - 8) (by omega)
      rw [ofBytes] at later
      rw [later, bit, bit, show i / 8 = (i - 8) / 8 + 1 by omega, show i % 8 = (i - 8) % 8 by omega]
      rfl

/-- The bits of the first bytes are the first bits. -/
theorem bit_take (bytes : List UInt8) {count i : Nat} (inside : i < 8 * count) :
    bit (bytes.take count) i = bit bytes i := by
  simp only [bit, List.getD_eq_getElem?_getD, List.getElem?_take, if_pos (show i / 8 < count by omega)]

/-- Bytes with the same bits are the same. -/
theorem eq_of_bits {a b : List UInt8} (long : a.length = b.length)
    (bits : ∀ i < 8 * a.length, bit a i = bit b i) : a = b := by
  rw [← toBytes_ofBytes a, ← toBytes_ofBytes b]
  congr 1
  apply List.ext_getElem?
  intro i
  by_cases inside : i < 8 * a.length
  · rw [getElem?_ofBytes inside, getElem?_ofBytes (long ▸ inside), bits i inside]
  · rw [List.getElem?_eq_none (by rw [length_ofBytes]; omega),
      List.getElem?_eq_none (by rw [length_ofBytes]; omega)]

private theorem getElem?_eq_bit {bits : List Bool} (whole : bits.length % 8 = 0) {i : Nat}
    (inside : i < bits.length) : bits[i]? = some (bit (toBytes bits) i) := by
  rw [← getElem?_ofBytes (by rw [length_toBytes]; omega), ofBytes_toBytes whole]

/-- A bit that is changed before packing is changed in its byte. -/
theorem toBytes_set {bits : List Bool} (whole : bits.length % 8 = 0) {i : Nat} (inside : i < bits.length)
    (on : Bool) : toBytes (bits.set i on) = mark (toBytes bits) i on := by
  apply eq_of_bits (by simp)
  intro j hj
  rw [length_toBytes, List.length_set] at hj
  rw [bit_mark (by rw [length_toBytes]; omega)]
  apply Option.some.inj
  rw [← getElem?_eq_bit (by rwa [List.length_set]) (by rw [List.length_set]; omega), List.getElem?_set]
  by_cases same : i = j
  · rw [if_pos same, if_pos same, if_pos (by omega)]
  · rw [if_neg same, if_neg same, getElem?_eq_bit whole (by omega)]

end PagedStore.Bits
