import Mathlib.Data.List.Forall2
import PagedStore.Proofs.Tuple.Codec

/-! Tuples in use: assignments to their fields, and what is read back when they have been written. -/
namespace PagedStore

private theorem Value.stored_eq_self_iff {value : Value} : value.stored = value ↔
    ∀ content, value = .text content → (Text.Utf8.encode content).length ≤ textCapacity := by
  cases value with
  | int number => exact iff_of_true rfl fun _ same => nomatch same
  | text content =>
    rw [stored, text.injEq, Text.Utf8.clip_eq_self_iff]
    exact ⟨fun fits _ same => text.inj same ▸ fits, fun fits => fits content rfl⟩

namespace Tuple

/-- What comes of an assignment: the fault, if it has failed, and the tuple after it. -/
structure Assigned where
  fault : Option Fault
  tuple : Tuple

def assign (t : Tuple) (index : Nat) (value : Value) : Assigned :=
  match t.set index value with
  | .ok after => ⟨none, after⟩
  | .error fault => ⟨some fault, t⟩

def assignWithin (t : Tuple) (index : Nat) (value : Value) : Option Assigned :=
  if t.schema.types[index]? = some value.type then
    if index < t.values.length then some ⟨none, { t with values := t.values.set index value }⟩ else none
  else some ⟨some (.unstorable value index t.schema), t⟩

/-- The tuples that are made for a schema or read, and those that assignments make of them, failing ones
included. -/
inductive Made : Tuple → Prop
  | ofValues {schema : Schema} {values : List Value} {t : Tuple} :
      Tuple.ofValues schema values = .ok t → Made t
  | decode {schema : Schema} {bytes rest : List UInt8} {t : Tuple} :
      Tuple.decode schema bytes = .ok (t, rest) → Made t
  | assign {t : Tuple} (index : Nat) (value : Value) : Made t → Made (t.assign index value).tuple

/-- An assignment fails and changes nothing, or gives a field another value of its type. -/
private theorem assign_cases (t : Tuple) (index : Nat) (value : Value) :
    (∃ fault, t.assign index value = ⟨some fault, t⟩) ∨
    t.schema.types[index]? = some value.type ∧
      t.assign index value = ⟨none, { t with values := t.values.set index value }⟩ := by
  by_cases fits : t.schema.types[index]? = some value.type
  · refine .inr ⟨fits, ?_⟩
    rw [assign, set, if_pos fits]
  · refine .inl ⟨.unstorable value index t.schema, ?_⟩
    rw [assign, set, if_neg fits]

private theorem IsTyped.assign {t : Tuple} (h : t.IsTyped) (index : Nat) (value : Value) :
    (t.assign index value).tuple.IsTyped := by
  rcases t.assign_cases index value with ⟨fault, he⟩ | ⟨fits, he⟩
  · rw [he]
    exact h
  · rw [he]
    obtain ⟨inside, same⟩ := List.getElem?_eq_some_iff.mp fits
    calc (t.values.set index value).map Value.type
      _ = (t.values.map Value.type).set index value.type := List.map_set
      _ = t.schema.types.set index t.schema.types[index] := by rw [h, same]
      _ = t.schema.types := List.set_getElem_self inside

/-- A typed tuple has every field that its schema has, so that no assignment goes beyond its fields. -/
private theorem IsTyped.assignWithin_eq {t : Tuple} (h : t.IsTyped) (index : Nat) (value : Value) :
    t.assignWithin index value = some (t.assign index value) := by
  rw [assignWithin, Tuple.assign, set]
  by_cases fits : t.schema.types[index]? = some value.type
  · have inside : index < t.values.length := by
      rw [← List.length_map (f := Value.type), h]
      exact (List.getElem?_eq_some_iff.mp fits).1
    rw [if_pos fits, if_pos fits, if_pos inside]
  · rw [if_neg fits, if_neg fits]

namespace Made
variable {t : Tuple}

private theorem isTyped (made : Made t) : t.IsTyped := by
  induction made with
  | ofValues h => exact isTyped_of_ofValues h
  | decode h => exact (eq_of_decode h).2.1
  | assign index value _ ih => exact ih.assign index value

private theorem record_eq (made : Made t) : t.record = none := by
  induction made with
  | ofValues h => rw [(ofValues_eq_ok_iff.mp h).2]
  | decode h => exact record_of_decode h
  | @assign t index value _ ih =>
    rcases t.assign_cases index value with ⟨fault, he⟩ | ⟨-, he⟩
    · rw [he]
      exact ih
    · rw [he]
      exact ih

def sample (characters : Nat) : Tuple :=
  ⟨Schema.nameless [.int, .text], [.int (-1), .text (String.ofList (List.replicate characters '€'))], none⟩

/-- A text in place of the number is refused, and one that is too long in place of the text is not. -/
private theorem of_sample : Made (sample 43) := by
  have made : Made (sample 1) := .ofValues (show Tuple.ofValues (sample 1).schema (sample 1).values = _ by
    decide +kernel)
  have refused := made.assign 0 (.text "b")
  exact refused.assign 1 (.text (String.ofList (List.replicate 43 '€')))

end Made

private theorem stored_sameRow_iff (t : Tuple) : t.stored.sameRow t ↔
    ∀ content, .text content ∈ t.values → (Text.Utf8.encode content).length ≤ textCapacity := by
  have agrees : t.stored.schema.agrees t.schema := t.schema.agrees_refl
  have whole : t.stored.values = t.values ↔ ∀ value ∈ t.values, value.stored = value := by
    have each := List.map_inj_left (l := t.values) (f := Value.stored) (g := id)
    rwa [List.map_id] at each
  rw [sameRow, agrees, Bool.true_and, beq_iff_eq, whole]
  simp only [Value.stored_eq_self_iff]
  constructor
  · exact fun fits content listed => fits _ listed content rfl
  · rintro fits _ listed content rfl
    exact fits content listed

/-- However a tuple was made, no assignment takes a field that it does not have, and one that fails leaves it as
it is. Written, it takes the width of its schema, and whatever follows it, it is read back as the tuple in which
storage keeps of each text the longest start that fits. This is the same row just if all of its texts fit. -/
theorem written_read_back {t : Tuple} (made : Made t) :
    (∀ index value, t.assignWithin index value = some (t.assign index value) ∧
      ((t.assign index value).fault ≠ none → (t.assign index value).tuple = t)) ∧
    t.encode.length = t.schema.width ∧
    ∃ kept, List.Forall₂ Value.Kept t.values kept ∧
      (∀ rest, decode t.schema (t.encode ++ rest) = .ok ({ t with values := kept }, rest)) ∧
      (sameRow { t with values := kept } t ↔
        ∀ content, .text content ∈ t.values → (Text.Utf8.encode content).length ≤ textCapacity) := by
  have typed := made.isTyped
  refine ⟨fun index value => ⟨typed.assignWithin_eq index value, ?unchanged⟩, typed.length_encode,
    t.stored.values, ?kept, fun rest => ?back, t.stored_sameRow_iff⟩
  case unchanged =>
    intro failed
    rcases t.assign_cases index value with ⟨fault, he⟩ | ⟨-, he⟩
    · rw [he]
    · rw [he] at failed
      exact absurd rfl failed
  case kept =>
    exact List.forall₂_map_right_iff.mpr (List.forall₂_same.mpr fun value _ => value.kept_stored)
  case back =>
    rw [typed.decode_encode_append (beq_self_eq_true t.schema.types), made.record_eq]

/-- Of 43 characters the last one is cut off, two bytes before the end of the room for the text. -/
theorem written_read_back_cut : Made (Made.sample 43) ∧ (Made.sample 43).encode.length = 136 ∧
    decode (Made.sample 43).schema ((Made.sample 43).encode ++ [7]) = .ok (Made.sample 42, [7]) ∧
    ¬ (Made.sample 42).sameRow (Made.sample 43) := by
  obtain ⟨-, long, kept, -, back, same⟩ := written_read_back Made.of_sample
  have read : decode (Made.sample 43).schema ((Made.sample 43).encode ++ [7]) = .ok (Made.sample 42, [7]) := by
    decide +kernel
  obtain ⟨cut, -⟩ := Prod.mk.inj (Except.ok.inj ((back [7]).symm.trans read))
  refine ⟨Made.of_sample, long, read, ?_⟩
  rw [← cut, same]
  exact fun fits => absurd (fits _ (List.mem_cons_of_mem _ List.mem_cons_self)) (by decide +kernel)

end Tuple

end PagedStore
