import Mathlib.Data.List.Forall2
import PagedStore.Proofs.Page.Update

/-! Tuples and pages apart from the names of columns, which storage does not keep. -/
namespace PagedStore

@[simp] theorem Schema.types_nameless (types : List ColumnType) :
    (Schema.nameless types).types = types := by
  induction types with
  | nil => rfl
  | cons type types ih => exact congrArg (type :: ·) ih

namespace Tuple

def nameless (t : Tuple) : Tuple :=
  { t with schema := .nameless t.schema.types }

@[simp] theorem nameless_nameless (t : Tuple) : t.nameless.nameless = t.nameless := by
  rw [nameless, nameless, Schema.types_nameless]

def Same (t u : Tuple) : Prop :=
  t.record = u.record ∧ t.sameRow u

private theorem nameless_eq_iff {t u : Tuple} : t.nameless = u.nameless ↔ t.Same u := by
  have types : Schema.nameless t.schema.types = Schema.nameless u.schema.types ↔
      t.schema.types = u.schema.types := by
    refine ⟨fun same => ?_, congrArg Schema.nameless⟩
    rw [← Schema.types_nameless t.schema.types, same, Schema.types_nameless]
  simp only [nameless, Same, sameRow, Schema.agrees, mk.injEq, types, Bool.and_eq_true, beq_iff_eq]
  exact ⟨fun ⟨same, values, record⟩ => ⟨record, same, values⟩,
    fun ⟨record, same, values⟩ => ⟨same, values, record⟩⟩

theorem forall₂_same_iff {ts us : List Tuple} :
    List.Forall₂ Same ts us ↔ ts.map nameless = us.map nameless := by
  rw [← List.forall₂_eq_eq_eq, List.forall₂_map_left_iff, List.forall₂_map_right_iff]
  simp only [nameless_eq_iff]

end Tuple

namespace Page

def nameless (p : Page) : Page :=
  { p with slots := p.slots.map (Option.map Tuple.nameless) }

@[simp] theorem nameless_nameless (p : Page) : p.nameless.nameless = p.nameless := by
  simp [nameless, Function.comp_def]

theorem tuples_nameless (p : Page) : p.nameless.tuples = p.tuples.map Tuple.nameless := by
  simp only [tuples, nameless, List.filterMap_map, List.map_filterMap]
  rfl

private theorem tuple?_nameless (p : Page) (slot : Nat) :
    p.nameless.tuple? slot = (p.tuple? slot).map Tuple.nameless := by
  rw [tuple?, tuple?, nameless, List.getElem?_map]
  rcases p.slots[slot]? with _ | _ | tuple <;> rfl

/-- In two pages of one name, of schemas that agree, equal rows are the same tuples. -/
private theorem Sound.nameless_tuple?_eq {p q : Page} (hp : p.Sound) (hq : q.Sound) (id : q.id = p.id)
    (agrees : q.schema.agrees p.schema) {slot : Nat} (row : q.row? slot = p.row? slot) :
    (q.tuple? slot).map Tuple.nameless = (p.tuple? slot).map Tuple.nameless := by
  rw [row?, row?] at row
  cases held : p.tuple? slot with
  | none =>
    rw [held, Option.map_none, Option.map_eq_none_iff] at row
    rw [row]
  | some t =>
    rw [held, Option.map_some, Option.map_eq_some_iff] at row
    obtain ⟨u, held', values⟩ := row
    obtain ⟨-, types, record⟩ := hp.typed held
    obtain ⟨-, types', record'⟩ := hq.typed held'
    have same : u.schema.types = t.schema.types :=
      ((Schema.types_eq_of_agrees types').trans (Schema.types_eq_of_agrees agrees)).trans
        (Schema.types_eq_of_agrees types).symm
    rw [held', Option.map_some, Option.map_some, Option.some_inj, Tuple.nameless_eq_iff]
    refine ⟨by rw [record, record', id], ?_⟩
    rw [Tuple.sameRow, values, beq_self_eq_true, Bool.and_true]
    exact Schema.agrees_iff_types_eq.mpr same

/-- Two sound pages of one name, size and schema with equal rows have the same tuples. -/
theorem Sound.nameless_slots_eq {p q : Page} (hp : p.Sound) (hq : q.Sound) (id : q.id = p.id)
    (schema : q.schema = p.schema) (size : q.size = p.size)
    (rows : ∀ slot, q.row? slot = p.row? slot) : q.nameless.slots = p.nameless.slots := by
  have count : q.slots.length = p.slots.length := by rw [hq.count, hp.count, schema, size]
  have agrees : q.schema.agrees p.schema := schema ▸ q.schema.agrees_refl
  apply List.ext_getElem
  · rw [nameless, nameless, List.length_map, List.length_map, count]
  · intro slot inside inside'
    rw [nameless, List.length_map] at inside inside'
    have same := hp.nameless_tuple?_eq hq id agrees (rows slot)
    rw [tuple?, tuple?, List.getElem?_eq_getElem inside, List.getElem?_eq_getElem inside'] at same
    simp only [nameless, List.getElem_map]
    exact same

/-! ### What does not depend on names -/

section SameButForNames
variable {p q : Page} (same : q.nameless = p.nameless)
include same

theorem id_congr : q.id = p.id := by
  show q.nameless.id = p.nameless.id
  rw [same]

theorem tuples_congr : q.tuples.map Tuple.nameless = p.tuples.map Tuple.nameless := by
  rw [← tuples_nameless, same, tuples_nameless]

theorem tuple?_congr (slot : Nat) :
    (q.tuple? slot).map Tuple.nameless = (p.tuple? slot).map Tuple.nameless := by
  rw [← tuple?_nameless, same, tuple?_nameless]

theorem image_congr : q.image = p.image := by
  have names (r : Page) : r.nameless.image = r.image := by
    have header : r.nameless.header = r.header := by
      simp [Page.header, nameless, Function.comp_def]
    have slots : r.nameless.slots.flatMap r.nameless.slotImage = r.slots.flatMap r.slotImage := by
      rw [nameless, List.flatMap_map]
      refine List.flatMap_congr fun content _ => ?_
      cases content <;> rfl
    rw [image, image, body, body, header, slots]
    rfl
  rw [← names q, same, names p]

theorem freeCount_congr : q.freeCount = p.freeCount := by
  have names (r : Page) : r.nameless.freeCount = r.freeCount := by
    simp [freeCount, nameless, List.countP_map, Function.comp_def]
  rw [← names q, same, names p]

theorem slots_length_congr : q.slots.length = p.slots.length := by
  have count := congrArg (fun r : Page => r.slots.length) same
  simpa only [nameless, List.length_map] using count

/-- An insertion finds the same slot, or fails alike. -/
theorem insert_congr (tuple : Tuple) :
    (q.insert tuple).map (fun outcome => (outcome.1, outcome.2.nameless)) =
      (p.insert tuple).map (fun outcome => (outcome.1, outcome.2.nameless)) := by
  have names (r : Page) : (r.nameless.insert tuple).map (fun outcome => (outcome.1, outcome.2.nameless)) =
      (r.insert tuple).map (fun outcome => (outcome.1, outcome.2.nameless)) := by
    have slot : r.nameless.slots.findIdx? Option.isNone = r.slots.findIdx? Option.isNone := by
      simp [nameless, List.findIdx?_map, Function.comp_def]
    rw [insert_eq, insert_eq, slot]
    show Except.map _ (if tuple.schema.agrees r.schema then _ else _) = _
    split
    · cases r.slots.findIdx? Option.isNone with
      | none => rfl
      | some slot => simp [Except.map, withSlot, nameless, List.map_set, Function.comp_def]
    · rfl
  rw [← names q, same, names p]

/-- So does a deletion. -/
theorem delete_congr (record : Option RecordId) :
    (q.delete record).map nameless = (p.delete record).map nameless := by
  have names (r : Page) : (r.nameless.delete record).map nameless = (r.delete record).map nameless := by
    cases record with
    | none => rfl
    | some record =>
      have used : r.nameless.isUsed record.slot = r.isUsed record.slot := by
        simp only [isUsed, tuple?, nameless, List.getElem?_map]
        cases r.slots[record.slot]? with
        | none => rfl
        | some content => cases content <;> rfl
      simp only [delete, used]
      by_cases own : record.page = r.id ∧ r.isUsed record.slot
      · rw [if_pos own, if_pos (show record.page = r.nameless.id ∧ _ from own)]
        simp [Except.map, nameless, List.map_set, Function.comp_def]
      · rw [if_neg own, if_neg (show ¬ (record.page = r.nameless.id ∧ _) from own)]
  rw [← names q, same, names p]

end SameButForNames

end Page

end PagedStore
