import Mathlib.Data.List.Induction
import PagedStore.Proofs.Catalog

/-! Whatever tables are made known and forgotten, names and numbers of the known ones stand for each other. -/
namespace PagedStore

inductive CatalogCall where
  | add (table : Table) (name primaryKey : String)
  | clear

namespace Catalog

def perform (c : Catalog) : CatalogCall → Catalog
  | .add table name primaryKey => c.add table name primaryKey
  | .clear => empty

def after (calls : List CatalogCall) : Catalog :=
  calls.foldl perform empty

private theorem after_concat (calls : List CatalogCall) (call : CatalogCall) :
    after (calls ++ [call]) = (after calls).perform call := by
  rw [after, List.foldl_append]
  rfl

/-! ### Names and numbers -/

/-- Whether each name is that of the table of its number, and the number of each table is that of its name. -/
structure Paired (c : Catalog) : Prop where
  named : ∀ {name : String} {id : TableId}, c.names[name]? = some id →
    c.entries[id]?.map CatalogEntry.name = some name
  numbered : ∀ {id : TableId} {entry : CatalogEntry}, c.entries[id]? = some entry →
    c.names[entry.name]? = some id

namespace Paired
variable {c : Catalog}

private theorem empty : Catalog.empty.Paired := by
  refine ⟨fun found => ?_, fun found => ?_⟩ <;> simp [Catalog.empty] at found

private theorem names_iff (h : c.Paired) {name : String} {id : TableId} :
    c.names[name]? = some id ↔ c.entries[id]?.map CatalogEntry.name = some name := by
  refine ⟨h.named, fun named => ?_⟩
  obtain ⟨entry, found, rfl⟩ := Option.map_eq_some_iff.mp named
  exact h.numbered found

/-- Only the former table of the number loses its name to a table that is added. -/
private theorem names_add (h : c.Paired) (table : Table) {name other : String} (primaryKey : String)
    (different : other ≠ name) : (c.add table name primaryKey).names[other]? =
      if c.entries[table.id]?.map CatalogEntry.name = some other then none else c.names[other]? := by
  rw [Catalog.names_add, if_neg different, entries_dropName]
  by_cases here : c.names[name]? = some table.id
  · -- the table of the number has the name already, so that no other name goes
    rw [if_pos here, h.named here, Option.map_none, if_neg (Option.some_ne_none other).symm,
      if_neg fun same => different (Option.some.inj same).symm]
  · rw [if_neg here]

private theorem add (h : c.Paired) (table : Table) (name primaryKey : String) :
    (c.add table name primaryKey).Paired where
  named {other id} found := by
    by_cases same : other = name
    · rw [Catalog.names_add, if_pos same] at found
      cases found
      rw [entries_add, if_pos rfl, Option.map_some, same]
    · rw [h.names_add table primaryKey same] at found
      split at found
      · cases found
      · rename_i kept
        have elsewhere : id ≠ table.id := fun here => kept (here ▸ h.named found)
        have other_table : c.names[name]? ≠ some id := fun former => same <|
          Option.some.inj ((h.named found).symm.trans (h.named former))
        rw [entries_add, if_neg elsewhere, if_neg other_table, h.named found]
  numbered {id entry} found := by
    rw [entries_add] at found
    split at found
    · rename_i here
      cases found
      rw [Catalog.names_add, if_pos rfl, here]
    · rename_i elsewhere
      split at found
      · cases found
      · rename_i other_table
        have numbered := h.numbered found
        have different : entry.name ≠ name := fun same => other_table (same ▸ numbered)
        rw [h.names_add table primaryKey different, if_neg fun former => elsewhere ?_, numbered]
        exact Option.some.inj (numbered.symm.trans (h.names_iff.mpr former))

end Paired

/-- What holds of no tables, and goes on to hold when one is added, holds after all calls. -/
theorem after_induction {motive : Catalog → Prop} (first : motive empty)
    (add : ∀ {c : Catalog}, motive c → ∀ table name primaryKey, motive (c.add table name primaryKey))
    (calls : List CatalogCall) : motive (after calls) := by
  induction calls using List.reverseRecOn with
  | nil => exact first
  | append_singleton calls call ih =>
    rw [after_concat]
    cases call with
    | add table name primaryKey => exact add ih table name primaryKey
    | clear => exact first

private theorem paired_after (calls : List CatalogCall) : (after calls).Paired :=
  after_induction .empty Paired.add calls

private theorem filed_after (calls : List CatalogCall) : (after calls).Filed :=
  after_induction filed_empty Filed.add calls

/-! ### What is answered -/

section Answers
variable {c : Catalog} {name : String} {id : TableId}

private theorem id_eq_ok_iff : c.id name = .ok id ↔ c.names[name]? = some id := by
  rw [Catalog.id]
  cases c.names[name]? <;> simp

private theorem entry_eq_ok_iff {entry : CatalogEntry} :
    c.entry id = .ok entry ↔ c.entries[id]? = some entry := by
  rw [Catalog.entry]
  cases c.entries[id]? <;> simp

private theorem name_eq_ok_iff :
    (c.entry id).map CatalogEntry.name = .ok name ↔ c.entries[id]?.map CatalogEntry.name = some name := by
  rw [Catalog.entry]
  cases c.entries[id]? <;> simp [Except.map]

private theorem entry_of_absent (absent : c.entries[id]? = none) : c.entry id = .error (.unknownTable id) := by
  rw [Catalog.entry, absent]

private theorem id_of_absent (absent : c.names[name]? = none) : c.id name = .error (.unknownName name) := by
  rw [Catalog.id, absent]

end Answers

/-- Whether names and numbers of tables stand for each other, each known table has the number that it is known
by, and the numbers are listed in ascending order, each once. -/
structure InOrder (c : Catalog) : Prop where
  paired : ∀ name id, c.id name = .ok id ↔ (c.entry id).map CatalogEntry.name = .ok name
  filed : c.Filed
  ascending : c.tables.Pairwise (· < ·)
  listed : ∀ id, id ∈ c.tables ↔ ∃ entry, c.entry id = .ok entry

private theorem Paired.inOrder {c : Catalog} (h : c.Paired) (filed : c.Filed) : c.InOrder where
  paired name id := by rw [id_eq_ok_iff, name_eq_ok_iff, h.names_iff]
  filed := filed
  ascending := Std.ExtTreeMap.ordered_keys.imp Nat.compare_eq_lt.mp
  listed id := by
    simp only [tables, Std.ExtTreeMap.mem_keys, Std.ExtTreeMap.mem_iff_isSome_getElem?,
      Option.isSome_iff_exists, entry_eq_ok_iff]

/-- Whether a table has become known by a name and by its number, in place of those known by either before, and
all others are known as before. -/
structure Registered (table : Table) (name primaryKey : String) (c c' : Catalog) : Prop where
  named : c'.id name = .ok table.id
  filed : c'.entry table.id = .ok ⟨table, name, primaryKey⟩
  former_table : ∀ {id}, c.id name = .ok id → id ≠ table.id → c'.entry id = .error (.unknownTable id)
  former_name : ∀ {entry}, c.entry table.id = .ok entry → entry.name ≠ name →
    c'.id entry.name = .error (.unknownName entry.name)
  other_tables : ∀ {id}, id ≠ table.id → c.id name ≠ .ok id → c'.entry id = c.entry id
  other_names : ∀ {other}, other ≠ name → (c.entry table.id).map CatalogEntry.name ≠ .ok other →
    c'.id other = c.id other

private theorem Paired.registered {c : Catalog} (h : c.Paired) (table : Table) (name primaryKey : String) :
    Registered table name primaryKey c (c.add table name primaryKey) where
  named := id_eq_ok_iff.mpr (by rw [Catalog.names_add, if_pos rfl])
  filed := entry_eq_ok_iff.mpr (by rw [entries_add, if_pos rfl])
  former_table {id} former elsewhere :=
    entry_of_absent (by rw [entries_add, if_neg elsewhere, if_pos (id_eq_ok_iff.mp former)])
  former_name {entry} former different := id_of_absent <| by
    rw [h.names_add table primaryKey different, entry_eq_ok_iff.mp former, Option.map_some, if_pos rfl]
  other_tables {id} elsewhere other := by
    rw [Catalog.entry, entries_add, if_neg elsewhere, if_neg fun former => other (id_eq_ok_iff.mpr former),
      Catalog.entry]
  other_names {other} different kept := by
    rw [Catalog.id, h.names_add table primaryKey different,
      if_neg fun former => kept (name_eq_ok_iff.mpr former), Catalog.id]

/-- Whatever tables were made known and forgotten, names and numbers stand for each other. A table that is added
takes the place of those of its name and of its number, and of no other. -/
theorem names_and_numbers_paired (calls : List CatalogCall) :
    (after calls).InOrder ∧ ∀ table name primaryKey, Registered table name primaryKey (after calls)
      (after (calls ++ [.add table name primaryKey])) := by
  refine ⟨(paired_after calls).inOrder (filed_after calls), fun table name primaryKey => ?_⟩
  rw [after_concat]
  exact (paired_after calls).registered table name primaryKey

end Catalog

end PagedStore
