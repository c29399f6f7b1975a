import Mathlib.Algebra.Order.Floor.Div
import Mathlib.Data.List.InsertIdx
import Mathlib.GroupTheory.GroupAction.Ring
import Mathlib.Order.CompletePartialOrder
import Mathlib.Order.Interval.Set.Disjoint
import PagedStore.Proofs.Page.Image

/-! How many slots a page has: as many as there is room for behind the header for them. -/
namespace PagedStore

/-! ### Wider tuples -/

namespace Schema

def insert (s : Schema) (index : Nat) (column : Column) : Schema :=
  ⟨s.columns.insertIdx index column⟩

private theorem widthOf_le_insertIdx (types : List ColumnType) (index : Nat) (type : ColumnType) :
    widthOf types ≤ widthOf (types.insertIdx index type) := by
  induction types generalizing index with
  | nil => exact Nat.zero_le _
  | cons first types ih =>
    cases index with
    | zero => exact Nat.le_add_left _ _
    | succ index => exact Nat.add_le_add_left (ih index) _

private theorem width_le_insert (s : Schema) (index : Nat) (column : Column) :
    s.width ≤ (s.insert index column).width := by
  rw [width, width, types, types, insert, List.map_insertIdx]
  exact widthOf_le_insertIdx _ index column.type

def widthWordOf (bits : Nat) : List ColumnType → BitVec bits
  | [] => 0
  | type :: types => .ofNat bits type.width + widthWordOf bits types

private theorem widthWordOf_eq (bits : Nat) (types : List ColumnType) :
    widthWordOf bits types = .ofNat bits (widthOf types) := by
  induction types with
  | nil => rfl
  | cons type types ih => rw [widthWordOf, ih, widthOf, BitVec.ofNat_add]

end Schema

namespace Layout

def slotCountWord (bits : Nat) (size : BitVec bits) (schema : Schema) : BitVec bits :=
  size * 8 / (Schema.widthWordOf bits schema.types * 8 + 1)

/-- Words in which the size in bits and what a slot costs have room are as good as numbers without bound. -/
private theorem toNat_slotCountWord {bits size : Nat} {schema : Schema} (room : size * 8 < 2 ^ bits)
    (room' : schema.width * 8 + 1 < 2 ^ bits) :
    (slotCountWord bits (.ofNat bits size) schema).toNat = slotCount size schema := by
  have sizeWord : BitVec.ofNat bits size * 8 = .ofNat bits (size * 8) := (BitVec.ofNat_mul ..).symm
  have costWord : BitVec.ofNat bits schema.width * 8 + 1 = .ofNat bits (schema.width * 8 + 1) := by
    rw [BitVec.ofNat_add, BitVec.ofNat_mul]
    rfl
  rw [slotCountWord, Schema.widthWordOf_eq, ← Schema.width, sizeWord, costWord, BitVec.toNat_udiv,
    BitVec.toNat_ofNat, BitVec.toNat_ofNat, Nat.mod_eq_of_lt room, Nat.mod_eq_of_lt room', slotCount]

/-! ### Room -/

private theorem headerBytes_eq_ceilDiv (slots : Nat) : headerBytes slots = slots ⌈/⌉ 8 := by
  rw [Nat.ceilDiv_eq_add_pred_div]
  rfl

private theorem slotCount_mono (schema : Schema) : Monotone fun size => slotCount size schema :=
  fun _ _ larger => Nat.div_le_div_right (Nat.mul_le_mul_right 8 larger)

private theorem slotCount_le_of_width_le (size : Nat) {narrow wide : Schema}
    (wider : narrow.width ≤ wide.width) :
    slotCount size wide ≤ slotCount size narrow :=
  Nat.div_le_div_left (Nat.succ_le_succ (Nat.mul_le_mul_right 8 wider)) (Nat.succ_pos _)

section Places
variable (size : Nat) (schema : Schema)

def headerRange : Set Nat :=
  Set.Ico 0 (headerBytes (slotCount size schema))

def slotRange (slot : Nat) : Set Nat :=
  Set.Ico (headerBytes (slotCount size schema) + slot * schema.width)
    (headerBytes (slotCount size schema) + slot * schema.width + schema.width)

/-- Whether the header and the slots end inside the page and lie apart from each other, and the bytes that are read
as those of a slot are all there. -/
structure Divided : Prop where
  header_end_le : headerBytes (slotCount size schema) ≤ size
  slot_end_le : ∀ slot < slotCount size schema,
    headerBytes (slotCount size schema) + slot * schema.width + schema.width ≤ size
  header_apart : ∀ slot, Disjoint (headerRange size schema) (slotRange size schema slot)
  slots_apart : Pairwise fun slot other => Disjoint (slotRange size schema slot) (slotRange size schema other)
  sliced : ∀ image : List UInt8, image.length = size → ∀ slot < slotCount size schema,
    (slotBytes schema (slotCount size schema) image.toArray slot).length = schema.width

variable {size schema} in
private theorem slotRange_disjoint {slot later : Nat} (before : slot < later) :
    Disjoint (slotRange size schema slot) (slotRange size schema later) := by
  have upTo : (slot + 1) * schema.width ≤ later * schema.width := Nat.mul_le_mul_right _ before
  rw [Nat.succ_mul] at upTo
  rw [slotRange, slotRange, Set.Ico_disjoint_Ico]
  omega

private theorem divided : Divided size schema where
  header_end_le := Nat.le_trans (Nat.le_add_right _ _) (header_add_slots_le size schema)
  slot_end_le _ inside := slot_end_le inside
  header_apart slot := by
    rw [headerRange, slotRange, Set.Ico_disjoint_Ico]
    omega
  slots_apart slot other different := by
    rcases Nat.lt_or_gt_of_ne different with before | after
    · exact slotRange_disjoint before
    · exact (slotRange_disjoint after).symm
  sliced image long slot inside := by
    have := slot_end_le inside
    rw [Page.slotBytes_eq, List.length_take, List.length_drop]
    omega

end Places

/-- The slots of a page are as many as there is room for behind their header, and lie in the page apart from it and
from each other. A larger page has no fewer slots, and with one column more there are no more. Words in which the
numbers have room that the slots are reckoned from give just as many. -/
theorem slots_greatest (size : Nat) (schema : Schema) :
    IsGreatest {slots | slots ⌈/⌉ 8 + slots * schema.width ≤ size} (slotCount size schema) ∧
    Divided size schema ∧
    (∀ larger, size ≤ larger → slotCount size schema ≤ slotCount larger schema) ∧
    (∀ index column, slotCount size (schema.insert index column) ≤ slotCount size schema) ∧
    ∀ bits, size * 8 < 2 ^ bits → schema.width * 8 + 1 < 2 ^ bits →
      (slotCountWord bits (.ofNat bits size) schema).toNat = slotCount size schema := by
  refine ⟨⟨?_, fun slots fits => ?_⟩, divided size schema, fun _ larger => slotCount_mono schema larger,
    fun index column => slotCount_le_of_width_le size (schema.width_le_insert index column),
    fun _ room room' => toNat_slotCountWord room room'⟩
  · rw [Set.mem_ofPred_eq, ← headerBytes_eq_ceilDiv]
    exact header_add_slots_le size schema
  · rw [Set.mem_ofPred_eq, ← headerBytes_eq_ceilDiv] at fits
    exact fits_iff.mp fits

/-- A header of one byte and eight slots of four bytes fill a page of 33 bytes, as words of nine bits tell. -/
theorem slots_greatest_filled :
    IsGreatest {slots | slots ⌈/⌉ 8 + slots * 4 ≤ 33} 8 ∧ 8 ≤ slotCount 34 (.nameless [.int]) ∧
    slotCount 33 ((Schema.nameless [.int]).insert 1 ⟨.text, none⟩) ≤ 8 ∧
    (slotCountWord 9 33 (.nameless [.int])).toNat = 8 := by
  obtain ⟨greatest, -, more, fewer, words⟩ := slots_greatest 33 (.nameless [.int])
  have count : slotCount 33 (.nameless [.int]) = 8 := by decide
  rw [count] at greatest more fewer words
  exact ⟨greatest, more 34 (by decide), fewer 1 ⟨.text, none⟩, words 9 (by decide) (by decide)⟩

end Layout

end PagedStore
