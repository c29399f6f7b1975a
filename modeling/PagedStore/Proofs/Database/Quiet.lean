import PagedStore.Proofs.Database.Approach

/-! What stays as it is while a transaction goes from page to page. -/
namespace PagedStore.Database

def Knows (db : Database) (table : Table) : Prop :=
  db.catalog.table table.id = .ok table

theorem eq_of_knows {db : Database} {table other : Table} (known : db.Knows table)
    (known' : db.Knows other) (same : table.id = other.id) : table = other := by
  rw [Knows, same, known'] at known
  exact (Except.ok.inj known).symm

/-- Where a table is opened alike over files that are alike, its pages are read alike. -/
theorem load_congr {db db' : Database} {table table' : Table} (known : db.Knows table)
    (known' : db'.Knows table') (id : table'.id = table.id) (schema : table'.schema = table.schema)
    (size : table'.pageSize = table.pageSize)
    (content : db'.volume.content table.id = db.volume.content table.id) {page : PageId}
    (here : page.table = table.id) : db'.load page = db.load page := by
  have pages : table'.pages db'.volume = table.pages db.volume := by
    rw [Table.pages_eq, Table.pages_eq, id, size, content]
  have image : table'.imageAt db'.volume page.number = table.imageAt db.volume page.number := by
    rw [Table.imageAt, Table.imageAt, id, size, content]
  rw [Knows] at known known'
  simp only [load, here, known, id ▸ known']
  rw [Table.load_eq _ _ here, Table.load_eq _ _ (here.trans id.symm), pages, image, schema]

/-- The known tables whose pages have numbers of their own up to the next one may grow. -/
def MayGrow (db : Database) (table : Table) (v : Volume) : Prop :=
  db.Knows table ∧ table.pages v < 4294967296

/-- What a transaction does to a database without changing a tuple: its locks get stronger, known
tables grow, and of the cached pages only clean ones come and go. -/
structure Quiet (txn : TxnId) (db db' : Database) : Prop where
  settings : db'.settings = db.settings
  catalog : db'.catalog = db.catalog
  locks : db.locks.Onward txn db'.locks
  grown : ∀ table, db.Knows table → table.Grown db.volume db'.volume
  numbered : ∀ table, db.Knows table →
    table.pages db'.volume ≤ max (table.pages db.volume) 4294967296
  content : ∀ {id}, (∀ table, db.Knows table → table.id ≠ id) →
    db'.volume.content id = db.volume.content id
  frames : ∀ id, db'.cache.frames[id]? = db.cache.frames[id]? ∨
    (∀ frame, db.cache.frames[id]? = some frame → frame.page.changedBy = none) ∧
      ∀ frame, db'.cache.frames[id]? = some frame → db'.load id = .ok frame.page

namespace Quiet
variable {txn : TxnId} {db mid db' : Database}

theorem refl (txn : TxnId) (db : Database) : Quiet txn db db :=
  ⟨rfl, rfl, .refl txn db.locks, fun _ _ => .of_content_eq rfl, fun _ _ => Nat.le_max_left _ _,
    fun _ => rfl, fun _ => .inl rfl⟩

theorem of_locks {locks : Locks} (onward : db.locks.Onward txn locks) : Quiet txn db { db with locks } :=
  { refl txn db with locks := onward }

/-- A page that can be read stays as it is in its file. -/
theorem load_of_ok (h : Quiet txn db db') {page : PageId} {p : Page} (loaded : db.load page = .ok p) :
    db'.load page = .ok p := by
  obtain ⟨table, known, loaded⟩ := load_eq_ok_iff.mp loaded
  have own := table.table_eq_of_load loaded
  refine load_eq_ok_iff.mpr ⟨table, h.catalog ▸ known, (h.grown table ?_).load_of_ok loaded⟩
  rwa [Knows, ← own]

theorem trans (h : Quiet txn db mid) (h' : Quiet txn mid db') : Quiet txn db db' where
  settings := h'.settings.trans h.settings
  catalog := h'.catalog.trans h.catalog
  locks := h.locks.trans h'.locks
  grown table known := by
    refine (h.grown table known).trans (h'.grown table ?_)
    rwa [Knows, h.catalog]
  numbered table known := by
    have first := h.numbered table known
    have last := h'.numbered table (by rwa [Knows, h.catalog])
    omega
  content {id} unknown := by
    rw [h'.content, h.content unknown]
    intro table known
    rw [Knows, h.catalog] at known
    exact unknown table known
  frames id := by
    rcases h.frames id with same | ⟨clean, loaded⟩
    · rw [← same]
      exact h'.frames id
    · refine .inr ⟨clean, fun frame cached => ?_⟩
      rcases h'.frames id with same' | ⟨-, loaded'⟩
      · exact h'.load_of_ok (loaded frame (same' ▸ cached))
      · exact loaded' frame cached

theorem keyed (h : Quiet txn db db') (keyed : db.cache.Keyed) : db'.cache.Keyed := by
  intro id frame cached
  rcases h.frames id with same | ⟨-, loaded⟩
  · exact keyed (same ▸ cached)
  · exact (shown_of_load (loaded frame cached)).1

/-- A cached page that some transaction has changed stays cached. -/
theorem of_dirty (h : Quiet txn db db') {id : PageId} {frame : Frame}
    (cached : db.cache.frames[id]? = some frame) (dirty : frame.page.changedBy ≠ none) :
    db'.cache.frames[id]? = some frame := by
  rcases h.frames id with same | ⟨clean, -⟩
  · rw [same, cached]
  · exact absurd (clean frame cached) dirty

/-- A cached page that some transaction has changed was cached before. -/
theorem to_dirty (h : Quiet txn db db') {id : PageId} {frame : Frame}
    (cached : db'.cache.frames[id]? = some frame) (dirty : frame.page.changedBy ≠ none) :
    db.cache.frames[id]? = some frame := by
  rcases h.frames id with same | ⟨-, loaded⟩
  · rw [← same, cached]
  · exact absurd (shown_of_load (loaded frame cached)).2 dirty

end Quiet

theorem quiet_fetch (db : Database) (txn : TxnId) (page : PageId) (access : Access) :
    Quiet txn db (db.fetch txn page access).2 := by
  have locks := db.onward_fetch txn page access
  rcases db.fetch_cases txn page access with
    ⟨-, _, -, he⟩ | ⟨-, ⟨_, -, he⟩ | ⟨absent, ⟨_, -, he⟩ | ⟨content, loaded, he⟩⟩⟩
  · rw [he] at locks ⊢
    exact ⟨rfl, rfl, locks, fun _ _ => .of_content_eq rfl, fun _ _ => Nat.le_max_left _ _, fun _ => rfl,
      fun _ => .inl rfl⟩
  · rw [he] at locks ⊢
    exact ⟨rfl, rfl, locks, fun _ _ => .of_content_eq rfl, fun _ _ => Nat.le_max_left _ _, fun _ => rfl,
      fun _ => .inl rfl⟩
  · rw [he] at locks ⊢
    exact ⟨rfl, rfl, locks, fun _ _ => .of_content_eq rfl, fun _ _ => Nat.le_max_left _ _, fun _ => rfl,
      fun _ => .inl rfl⟩
  · rw [he] at locks ⊢
    refine ⟨rfl, rfl, locks, fun _ _ => .of_content_eq rfl, fun _ _ => Nat.le_max_left _ _, fun _ => rfl,
      fun id => ?_⟩
    rcases db.cache.bringIn_cases content with ⟨-, same⟩ | ⟨brought, -, rfl, here, others⟩
    · exact .inl (congrArg (·[id]?) same)
    · obtain ⟨own, -⟩ := shown_of_load loaded
      by_cases this : id = page
      · subst this
        refine .inr ⟨fun frame cached => ?_, fun frame cached => ?_⟩
        · rw [absent] at cached
          cases cached
        · rw [← own, here] at cached
          cases cached
          exact loaded
      · rcases others id (own ▸ this) with stays | ⟨clean, gone⟩
        · exact .inl stays
        · obtain ⟨victim, cached, clean⟩ := Cache.isClean_iff.mp clean
          refine .inr ⟨fun frame held => ?_, fun frame held => ?_⟩
          · rw [cached] at held
            cases held
            exact clean
          · rw [gone] at held
            cases held

private theorem quiet_visit {db : Database} {txn : TxnId} {page : PageId} (access : Access)
    (fresh : db.locks.holds txn page = false) :
    Quiet txn db ((db.fetch txn page access).2.releasePage txn page) := by
  have fetched := quiet_fetch db txn page access
  exact ⟨fetched.settings, fetched.catalog, fetched.locks.release fresh, fetched.grown, fetched.numbered,
    fetched.content, fetched.frames⟩

/-- A known table may grow by a page that gets a number of its own. -/
theorem quiet_append {db : Database} {table : Table} (may : db.MayGrow table db.volume) (txn : TxnId) :
    Quiet txn db (db.appendPage table).2 where
  settings := rfl
  catalog := rfl
  locks := .refl txn db.locks
  grown other known := by
    by_cases own : other.id = table.id
    · rw [eq_of_knows known may.1 own]
      exact (table.grown_append may.2).1
    · exact .of_content_eq (table.content_append db.volume own)
  numbered other known := by
    by_cases own : other.id = table.id
    · rw [eq_of_knows known may.1 own]
      have one_more : table.pages (db.appendPage table).2.volume = table.pages db.volume + 1 :=
        (table.grown_append may.2).2
      have := may.2
      omega
    · have same : other.pages (db.appendPage table).2.volume = other.pages db.volume :=
        congrArg (·.length / other.pageSize) (table.content_append db.volume own)
      exact same ▸ Nat.le_max_left _ _
  content unknown := table.content_append db.volume (unknown table may.1).symm
  frames _ := .inl rfl

/-- A transaction that goes from page to page changes no tuple, as long as only known tables grow by
pages with numbers of their own. -/
theorem Approach.quiet {grows : Table → Volume → Prop} {txn : TxnId} {db db' : Database}
    (h : Approach grows txn db db') (may : ∀ table v, grows table v → db.MayGrow table v) :
    Quiet txn db db' := by
  induction h with
  | still => exact .refl txn db
  | fetch page access _ ih => exact ih.trans (quiet_fetch _ txn page access)
  | visit page access _ fresh ih => exact ih.trans (quiet_visit access fresh)
  | append table _ grows ih =>
    obtain ⟨known, room⟩ := may table _ grows
    refine ih.trans (quiet_append ⟨?_, room⟩ txn)
    rwa [Knows, ih.catalog]
  | wait _ onward ih => exact ih.trans (.of_locks onward)

end PagedStore.Database
