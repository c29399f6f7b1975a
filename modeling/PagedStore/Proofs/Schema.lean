import PagedStore.Fault

/-! Schemas: which of them agree, and schemas put together, with the columns of one followed by those of another. -/
namespace PagedStore.Schema

/-! ### Agreement -/

section Agreement
variable {s t : Schema}

theorem agrees_iff_types_eq : s.agrees t ↔ s.types = t.types :=
  beq_iff_eq

theorem types_eq_of_agrees (h : s.agrees t) : s.types = t.types :=
  agrees_iff_types_eq.mp h

theorem width_eq_of_agrees (h : s.agrees t) : s.width = t.width := by
  rw [width, types_eq_of_agrees h, width]

theorem agrees_refl (s : Schema) : s.agrees s :=
  agrees_iff_types_eq.mpr rfl

theorem agrees_equivalence : Equivalence fun s t : Schema => s.agrees t = true where
  refl := agrees_refl
  symm h := agrees_iff_types_eq.mpr (types_eq_of_agrees h).symm
  trans h h' := agrees_iff_types_eq.mpr ((types_eq_of_agrees h).trans (types_eq_of_agrees h'))

end Agreement

/-! ### Columns -/

section Columns
variable (s t : Schema)

@[simp] theorem types_append : (s.append t).types = s.types ++ t.types :=
  List.map_append

private theorem widthOf_append (types types' : List ColumnType) :
    widthOf (types ++ types') = widthOf types + widthOf types' := by
  induction types with
  | nil => exact (Nat.zero_add _).symm
  | cons type types ih => rw [List.cons_append, widthOf, ih, widthOf, Nat.add_assoc]

theorem width_append : (s.append t).width = s.width + t.width := by
  rw [width, types_append, widthOf_append, width, width]

theorem length_append : (s.append t).columns.length = s.columns.length + t.columns.length :=
  List.length_append

theorem append_assoc (u : Schema) : (s.append t).append u = s.append (t.append u) :=
  congrArg mk (List.append_assoc ..)

variable {s t} in
theorem agrees_append {s' t' : Schema} (h : s.agrees s') (h' : t.agrees t') :
    (s.append t).agrees (s'.append t') := by
  rw [agrees_iff_types_eq] at *
  rw [types_append, types_append, h, h']

end Columns

/-! ### Names -/

section Names
variable (s t : Schema) (name : String)

def Has : Prop :=
  ∃ column ∈ s.columns, column.name = some name

instance : Decidable (s.Has name) :=
  inferInstanceAs (Decidable (∃ column ∈ s.columns, column.name = some name))

theorem has_append : (s.append t).Has name ↔ s.Has name ∨ t.Has name := by
  simp only [Has, append, List.mem_append, or_and_right, exists_or]

private theorem position?_eq_none_iff : s.position? name = none ↔ ¬ s.Has name := by
  simp only [position?, List.findIdx?_eq_none_iff, decide_eq_false_iff_not, Has, not_exists, not_and]

private theorem position?_append : (s.append t).position? name =
    (s.position? name).or ((t.position? name).map (s.columns.length + ·)) := by
  simp only [position?, append, List.findIdx?_append, Nat.add_comm]

variable {s name} in
theorem position_eq_error_iff {fault : Fault} :
    s.position name = .error fault ↔ fault = .unknownColumn name ∧ ¬ s.Has name := by
  rw [← position?_eq_none_iff, position]
  cases s.position? name <;> simp [eq_comm]

/-- A column is found in the first schema if that has the name, and else in the second one. -/
theorem position_append : (s.append t).position name =
    if s.Has name then s.position name else (t.position name).map (s.columns.length + ·) := by
  rw [position, position?_append, position, position]
  cases found : s.position? name with
  | none =>
    rw [if_neg ((s.position?_eq_none_iff name).mp found), Option.none_or]
    cases t.position? name <;> rfl
  | some index =>
    have present : s.Has name := Decidable.not_not.mp fun absent =>
      Option.some_ne_none index (found.symm.trans ((s.position?_eq_none_iff name).mpr absent))
    rw [if_pos present, Option.some_or]

end Names

end PagedStore.Schema
