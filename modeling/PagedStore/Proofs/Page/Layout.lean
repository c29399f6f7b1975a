import PagedStore.Page.Layout

/-! The header of a page and the room for it. -/
namespace PagedStore

namespace Bits

private theorem length_lt_eight {bits : List Bool}
    (few : ∀ a b c d e f g h rest, bits = a :: b :: c :: d :: e :: f :: g :: h :: rest → False) :
    bits.length < 8 := by
  match bits with
  | _ :: _ :: _ :: _ :: _ :: _ :: _ :: _ :: _ => exact (few _ _ _ _ _ _ _ _ _ rfl).elim
  | [] | [_] | [_, _] | [_, _, _] | [_, _, _, _] | [_, _, _, _, _] | [_, _, _, _, _, _]
  | [_, _, _, _, _, _, _] => simp

@[simp] theorem length_toBytes (bits : List Bool) : (toBytes bits).length = bits.length / 8 := by
  fun_induction toBytes bits with
  | case1 a b c d e f g h bits ih =>
    simp only [List.length_cons, ih]
    omega
  | case2 bits few =>
    have := length_lt_eight few
    rw [List.length_nil]
    omega

private theorem toNat_lt (bits : List Bool) (h : bits.length = 8) : toNat bits < 256 := by
  match bits, h with
  | [a, b, c, d, e, f, g, h], _ =>
    have := a.toNat_le
    have := b.toNat_le
    have := c.toNat_le
    have := d.toNat_le
    have := e.toNat_le
    have := f.toNat_le
    have := g.toNat_le
    have := h.toNat_le
    simp only [toNat]
    omega

/-- Bits in whole bytes come back from those bytes. -/
theorem ofBytes_toBytes {bits : List Bool} (whole : bits.length % 8 = 0) :
    ofBytes (toBytes bits) = bits := by
  fun_induction toBytes bits with
  | case1 a b c d e f g h bits ih =>
    have byte : ofNat 8 (toNat [a, b, c, d, e, f, g, h]) = _ := ofNat_toNat [a, b, c, d, e, f, g, h]
    have small := toNat_lt [a, b, c, d, e, f, g, h] rfl
    have rest := ih (by simp only [List.length_cons] at whole; omega)
    rw [ofBytes, List.flatMap_cons, UInt8.toNat_ofNat', Nat.mod_eq_of_lt small, byte]
    exact congrArg ([a, b, c, d, e, f, g, h] ++ ·) rest
  | case2 bits few =>
    have := length_lt_eight few
    rw [List.eq_nil_of_length_eq_zero (show bits.length = 0 by omega)]
    rfl

end Bits

namespace Layout

/-- Just so many slots fit into a page behind a header for them. -/
theorem fits_iff {slots size : Nat} {schema : Schema} :
    headerBytes slots + slots * schema.width ≤ size ↔ slots ≤ slotCount size schema := by
  rw [slotCount, Nat.le_div_iff_mul_le (Nat.succ_pos _), Nat.mul_succ, ← Nat.mul_assoc, headerBytes]
  omega

/-- The header and the slots fit into the page. -/
theorem header_add_slots_le (size : Nat) (schema : Schema) :
    headerBytes (slotCount size schema) + slotCount size schema * schema.width ≤ size :=
  fits_iff.mpr (Nat.le_refl _)

/-- Every slot ends inside the page. -/
theorem slot_end_le {slot size : Nat} {schema : Schema} (inside : slot < slotCount size schema) :
    headerBytes (slotCount size schema) + slot * schema.width + schema.width ≤ size := by
  have all := header_add_slots_le size schema
  have upTo : (slot + 1) * schema.width ≤ slotCount size schema * schema.width :=
    Nat.mul_le_mul_right _ inside
  rw [Nat.succ_mul] at upTo
  omega

theorem le_header_bits (slots : Nat) : slots ≤ 8 * headerBytes slots := by
  rw [headerBytes]
  omega

end Layout

end PagedStore
