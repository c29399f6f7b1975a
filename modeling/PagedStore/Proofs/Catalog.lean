import PagedStore.Catalog

/-! Known tables are found under their own numbers. -/
namespace PagedStore.Catalog

theorem table_eq_ok_iff {c : Catalog} {id : TableId} {table : Table} :
    c.table id = .ok table ↔ ∃ entry, c.entries[id]? = some entry ∧ entry.table = table := by
  unfold Catalog.table entry
  cases c.entries[id]? <;> simp [Except.map]

theorem table_eq_error {c : Catalog} {id : TableId} {fault : Fault} (h : c.table id = .error fault) :
    fault = .unknownTable id := by
  unfold Catalog.table entry at h
  cases found : c.entries[id]? with
  | none =>
    rw [found] at h
    exact (Except.error.inj h).symm
  | some entry =>
    rw [found] at h
    cases h

def Filed (c : Catalog) : Prop :=
  ∀ ⦃id : TableId⦄ ⦃table : Table⦄, c.table id = .ok table → table.id = id

theorem filed_empty : empty.Filed := by
  intro id table known
  obtain ⟨entry, found, -⟩ := table_eq_ok_iff.mp known
  simp [empty] at found

/-! ### What is dropped and added -/

private theorem names_dropName (c : Catalog) (name other : String) :
    (c.dropName name).names[other]? = if other = name then none else c.names[other]? := by
  rw [dropName]
  split
  · rename_i absent
    split
    · rename_i here
      rw [here, absent]
    · rfl
  · simp only [Std.ExtTreeMap.getElem?_erase, Std.LawfulEqCmp.compare_eq_iff_eq, eq_comm (a := name)]

theorem entries_dropName (c : Catalog) (name : String) (id : TableId) :
    (c.dropName name).entries[id]? = if c.names[name]? = some id then none else c.entries[id]? := by
  rw [dropName]
  split
  · rename_i absent
    rw [absent, if_neg (Option.some_ne_none id).symm]
  · rename_i dropped found
    simp only [Std.ExtTreeMap.getElem?_erase, Std.LawfulEqCmp.compare_eq_iff_eq, found, Option.some.injEq]

private theorem entries_dropId (c : Catalog) (dropped id : TableId) :
    (c.dropId dropped).entries[id]? = if id = dropped then none else c.entries[id]? := by
  rw [dropId]
  split
  · rename_i absent
    split
    · rename_i here
      rw [here, absent]
    · rfl
  · simp only [Std.ExtTreeMap.getElem?_erase, Std.LawfulEqCmp.compare_eq_iff_eq, eq_comm (a := dropped)]

private theorem names_dropId (c : Catalog) (dropped : TableId) (name : String) :
    (c.dropId dropped).names[name]? =
      if c.entries[dropped]?.map CatalogEntry.name = some name then none else c.names[name]? := by
  rw [dropId]
  split
  · rename_i absent
    rw [absent, Option.map_none, if_neg (Option.some_ne_none name).symm]
  · rename_i entry found
    simp only [Std.ExtTreeMap.getElem?_erase, Std.LawfulEqCmp.compare_eq_iff_eq, found, Option.map_some,
      Option.some.injEq]

/-- The table of a number after one is added: the table added, or one known before, unless by the name. -/
theorem entries_add (c : Catalog) (table : Table) (name primaryKey : String) (id : TableId) :
    (c.add table name primaryKey).entries[id]? =
      if id = table.id then some ⟨table, name, primaryKey⟩
      else if c.names[name]? = some id then none else c.entries[id]? := by
  simp only [add, Std.ExtTreeMap.getElem?_insert, Std.LawfulEqCmp.compare_eq_iff_eq,
    eq_comm (a := table.id)]
  split
  · rfl
  · rename_i elsewhere
    rw [entries_dropId, if_neg elsewhere, entries_dropName]

/-- The number of a name after a table is added. -/
theorem names_add (c : Catalog) (table : Table) (name primaryKey other : String) :
    (c.add table name primaryKey).names[other]? =
      if other = name then some table.id
      else if (c.dropName name).entries[table.id]?.map CatalogEntry.name = some other then none
      else c.names[other]? := by
  simp only [add, Std.ExtTreeMap.getElem?_insert, Std.LawfulEqCmp.compare_eq_iff_eq, eq_comm (a := name)]
  split
  · rfl
  · rename_i different
    rw [names_dropId, names_dropName, if_neg different]

/-- A known table was added just now or known before. -/
theorem table_of_add {c : Catalog} {added table : Table} {name primaryKey : String} {id : TableId}
    (known : (c.add added name primaryKey).table id = .ok table) :
    (id = added.id ∧ table = added) ∨ (id ≠ added.id ∧ c.table id = .ok table) := by
  obtain ⟨entry, found, rfl⟩ := table_eq_ok_iff.mp known
  rw [entries_add] at found
  split at found
  · rename_i here
    cases found
    exact .inl ⟨here, rfl⟩
  · rename_i elsewhere
    split at found
    · cases found
    · exact .inr ⟨elsewhere, table_eq_ok_iff.mpr ⟨entry, found, rfl⟩⟩

theorem table_add_self (c : Catalog) (table : Table) (name primaryKey : String) :
    (c.add table name primaryKey).table table.id = .ok table :=
  table_eq_ok_iff.mpr ⟨⟨table, name, primaryKey⟩, by rw [entries_add, if_pos rfl], rfl⟩

/-- A table added under a name and a number that are not in use takes the place of no other. -/
theorem table_add_of_fresh {c : Catalog} {table : Table} {name : String}
    (fresh_name : c.names[name]? = none) (primaryKey : String)
    {id : TableId} (other : id ≠ table.id) : (c.add table name primaryKey).table id = c.table id := by
  rw [Catalog.table, Catalog.table, entry, entry, entries_add, if_neg other, fresh_name,
    if_neg (Option.some_ne_none id).symm]

theorem Filed.add {c : Catalog} (h : c.Filed) (table : Table) (name primaryKey : String) :
    (c.add table name primaryKey).Filed := by
  intro id other known
  rcases table_of_add known with ⟨rfl, rfl⟩ | ⟨-, before⟩
  · rfl
  · exact h before

end PagedStore.Catalog
