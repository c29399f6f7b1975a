import PagedStore.Proofs.Database.Placing

/-! Insertions and deletions: a transaction goes from page to page, which changes no tuple, and in the
end changes one slot or none. -/
namespace PagedStore

private theorem Cache.Keyed.bringIn {c : Cache} (h : c.Keyed) (page : Page) : (c.bringIn page).2.Keyed := by
  intro id frame cached
  rcases c.bringIn_cases page with ⟨-, same⟩ | ⟨brought, -, rfl, here, others⟩
  · rw [same] at cached
    exact h cached
  · by_cases own : id = brought.page.id
    · subst own
      rw [here] at cached
      cases cached
      rfl
    · rcases others id own with stays | ⟨-, gone⟩
      · exact h (stays ▸ cached)
      · rw [gone] at cached
        cases cached

namespace Database

theorem keyed_fetch {db : Database} (h : db.cache.Keyed) (txn : TxnId) (page : PageId)
    (access : Access) : (db.fetch txn page access).2.cache.Keyed := by
  rcases db.fetch_cases txn page access with
    ⟨-, _, -, he⟩ | ⟨-, ⟨_, -, he⟩ | ⟨-, ⟨_, -, he⟩ | ⟨content, -, he⟩⟩⟩
  · rw [he]
    exact h
  · rw [he]
    exact h
  · rw [he]
    exact h
  · rw [he]
    exact h.bringIn content

theorem volume_fetch (db : Database) (txn : TxnId) (page : PageId) (access : Access) :
    (db.fetch txn page access).2.volume = db.volume := by
  rcases db.fetch_cases txn page access with
    ⟨-, _, -, he⟩ | ⟨-, ⟨_, -, he⟩ | ⟨-, ⟨_, -, he⟩ | ⟨_, -, he⟩⟩⟩ <;>
  rw [he]

theorem catalog_fetch (db : Database) (txn : TxnId) (page : PageId) (access : Access) :
    (db.fetch txn page access).2.catalog = db.catalog := by
  rcases db.fetch_cases txn page access with
    ⟨-, _, -, he⟩ | ⟨-, ⟨_, -, he⟩ | ⟨-, ⟨_, -, he⟩ | ⟨_, -, he⟩⟩⟩ <;>
  rw [he]

theorem load_fetch (db : Database) (txn : TxnId) (page : PageId) (access : Access) (other : PageId) :
    (db.fetch txn page access).2.load other = db.load other := by
  rw [load, load, catalog_fetch, volume_fetch]

theorem onward_fetch (db : Database) (txn : TxnId) (page : PageId) (access : Access) :
    db.locks.Onward txn (db.fetch txn page access).2.locks := by
  have asked := db.locks.onward_request txn page access.mode
  rcases db.fetch_cases txn page access with
    ⟨-, _, -, he⟩ | ⟨-, ⟨_, -, he⟩ | ⟨-, ⟨_, -, he⟩ | ⟨_, -, he⟩⟩⟩
  · rw [he]
    exact asked.stopWaiting
  · rw [he]
    exact asked
  · rw [he]
    exact asked
  · rw [he]
    exact asked

/-- How a transaction goes from page to page: it fetches them, gives a lock back that it took just
now, adds pages to tables that may grow, and waits for locks. -/
inductive Approach (grows : Table → Volume → Prop) (txn : TxnId) (db : Database) : Database → Prop
  | still : Approach grows txn db db
  | fetch {mid : Database} (page : PageId) (access : Access) : Approach grows txn db mid →
      Approach grows txn db (mid.fetch txn page access).2
  | visit {mid : Database} (page : PageId) (access : Access) : Approach grows txn db mid →
      mid.locks.holds txn page = false →
      Approach grows txn db ((mid.fetch txn page access).2.releasePage txn page)
  | append {mid : Database} (table : Table) : Approach grows txn db mid → grows table mid.volume →
      Approach grows txn db (mid.appendPage table).2
  | wait {mid : Database} {locks : Locks} : Approach grows txn db mid → mid.locks.Onward txn locks →
      Approach grows txn db { mid with locks }

namespace Approach
variable {grows : Table → Volume → Prop} {txn : TxnId} {db mid db' : Database}

theorem trans (h : Approach grows txn db mid) (h' : Approach grows txn mid db') :
    Approach grows txn db db' := by
  induction h' with
  | still => exact h
  | fetch page access _ ih => exact ih.fetch page access
  | visit page access _ fresh ih => exact ih.visit page access fresh
  | append table _ may ih => exact ih.append table may
  | wait _ onward ih => exact ih.wait onward

theorem of_fetch {result : Except Fault Frame} {page : PageId} {access : Access}
    (fetched : db.fetch txn page access = (result, db')) : Approach grows txn db db' := by
  have way : Approach grows txn db (db.fetch txn page access).2 := .fetch page access .still
  rwa [fetched] at way

theorem keyed (h : Approach grows txn db db') (keyed : db.cache.Keyed) : db'.cache.Keyed := by
  induction h with
  | still => exact keyed
  | fetch page access _ ih => exact keyed_fetch ih txn page access
  | visit page access _ _ ih => exact keyed_fetch ih txn page access
  | append table _ _ ih => exact ih
  | wait _ _ ih => exact ih

theorem catalog_eq (h : Approach grows txn db db') : db'.catalog = db.catalog := by
  induction h with
  | still => rfl
  | fetch page access _ ih => exact (catalog_fetch _ txn page access).trans ih
  | visit page access _ _ ih => exact (catalog_fetch _ txn page access).trans ih
  | append table _ _ ih => exact ih
  | wait _ _ ih => exact ih

theorem onward (h : Approach grows txn db db') : db.locks.Onward txn db'.locks := by
  induction h with
  | still => exact .refl txn db.locks
  | fetch page access _ ih => exact ih.trans (onward_fetch _ txn page access)
  | visit page access _ fresh ih => exact ih.trans ((onward_fetch _ txn page access).release fresh)
  | append table _ _ ih => exact ih
  | wait _ onward ih => exact ih.trans onward

/-- Where no table may grow, no file changes. -/
theorem volume_eq (h : Approach (fun _ _ => False) txn db db') : db'.volume = db.volume := by
  induction h with
  | still => rfl
  | fetch page access _ ih => rw [volume_fetch, ih]
  | visit page access _ _ ih => exact (volume_fetch _ txn page access).trans ih
  | append table _ may => exact may.elim
  | wait _ _ ih => exact ih

end Approach

/-- What an insertion or deletion does to the page it has found: one slot of the cached page, which
the transaction holds exclusively, gets a new content. -/
structure Edit (txn : TxnId) (record : RecordId) (content : Option Tuple) (db db' : Database) :
    Prop where
  settings : db'.settings = db.settings
  catalog : db'.catalog = db.catalog
  volume : db'.volume = db.volume
  locks : db'.locks = db.locks
  exclusive : db.locks.mode? txn record.page = some .exclusive
  found : ∃ frame, db.cache.frames[record.page]? = some frame ∧ frame.page.Takes record content ∧
    ∀ id, db'.cache.frames[id]? = if id = record.page then
      some { frame with page := (frame.page.withSlot record.slot content).changed txn }
      else db.cache.frames[id]?

private theorem edit_modify {db : Database} {txn : TxnId} {record : RecordId}
    {content : Option Tuple} {frame : Frame} (cached : db.cache.frames[record.page]? = some frame)
    (locked : db.locks.mode? txn record.page = some .exclusive)
    (takes : frame.page.Takes record content) :
    Edit txn record content db { db with cache := db.cache.modify record.page fun _ =>
      (frame.page.withSlot record.slot content).changed txn } := by
  refine ⟨rfl, rfl, rfl, rfl, locked, frame, cached, takes, fun id => ?_⟩
  rw [Cache.frames_modify]
  split
  · rename_i here
    rw [here, cached]
    rfl
  · rfl

namespace Edit
variable {txn : TxnId} {record : RecordId} {content : Option Tuple} {db db' : Database}

/-- An edit does not depend on the order in which pages leave. -/
theorem pin (h : Edit txn record content db db') (page : PageId) :
    Edit txn record content db { db' with cache := (db'.cache.access page).pin page } :=
  ⟨h.settings, h.catalog, h.volume, h.locks, h.exclusive, h.found⟩

theorem load_eq (h : Edit txn record content db db') (page : PageId) : db'.load page = db.load page := by
  rw [load, load, h.catalog, h.volume]

/-- A cached page is as it was before, or the one with the slot. -/
theorem cached_cases (h : Edit txn record content db db') {page : PageId} {frame : Frame}
    (cached : db'.cache.frames[page]? = some frame) :
    (page ≠ record.page ∧ db.cache.frames[page]? = some frame) ∨
    ∃ old, page = record.page ∧ db.cache.frames[record.page]? = some old ∧
      old.page.Takes record content ∧
      frame = { old with page := (old.page.withSlot record.slot content).changed txn } := by
  obtain ⟨old, held, takes, frames⟩ := h.found
  rw [frames] at cached
  split at cached
  · rename_i here
    exact .inr ⟨old, here, held, takes, (Option.some.inj cached).symm⟩
  · rename_i elsewhere
    exact .inl ⟨elsewhere, cached⟩

end Edit

theorem Edit.keyed {txn : TxnId} {record : RecordId} {content : Option Tuple} {db db' : Database}
    (h : Edit txn record content db db') (keyed : db.cache.Keyed) : db'.cache.Keyed := by
  intro id frame cached
  rcases h.cached_cases cached with ⟨-, before⟩ | ⟨old, here, held, -, rfl⟩
  · exact keyed before
  · exact (keyed held).trans here.symm

/-- What an insertion or deletion does: the transaction finds its way, and edits the record that is
returned, if one is. -/
def Attempt (grows : Table → Volume → Prop) (txn : TxnId) (content : RecordId → Option Tuple)
    (db : Database) (done : Option RecordId) (db' : Database) : Prop :=
  ∃ mid, Approach grows txn db mid ∧
    match done with
    | none => db' = mid
    | some record => Edit txn record (content record) mid db'

namespace Attempt
variable {grows : Table → Volume → Prop} {txn : TxnId} {content : RecordId → Option Tuple}
  {db mid db' : Database} {done : Option RecordId}

theorem of_approach (h : Approach grows txn db db') : Attempt grows txn content db none db' :=
  ⟨db', h, rfl⟩

private theorem after (h : Approach grows txn db mid) (h' : Attempt grows txn content mid done db') :
    Attempt grows txn content db done db' := by
  obtain ⟨last, way, edit⟩ := h'
  exact ⟨last, h.trans way, edit⟩

theorem approach (h : Attempt grows txn content db none db') : Approach grows txn db db' := by
  obtain ⟨_, way, rfl⟩ := h
  exact way

theorem keyed (h : Attempt grows txn content db done db') (keyed : db.cache.Keyed) : db'.cache.Keyed := by
  obtain ⟨mid, way, edit⟩ := h
  cases done with
  | none => exact edit ▸ way.keyed keyed
  | some record => exact edit.keyed (way.keyed keyed)

theorem volume_eq (h : Attempt (fun _ _ => False) txn content db done db') :
    db'.volume = db.volume := by
  obtain ⟨mid, way, edit⟩ := h
  cases done with
  | none => rw [edit, way.volume_eq]
  | some record => rw [edit.volume, way.volume_eq]

end Attempt

/-! ### Insertion -/

def asRecord (tuple : Tuple) (record : RecordId) : Option Tuple :=
  some { tuple with record := some record }

/-- All that trying a page can come to: it cannot be fetched, it is full and passed over, it refuses the
tuple, or the tuple goes into a slot. -/
inductive Trial (db : Database) (txn : TxnId) (tuple : Tuple) (page : PageId) :
    Except Fault (Option RecordId) → Database → Prop
  | unfetched {fault : Fault} {mid : Database} : db.fetch txn page .write = (.error fault, mid) →
      Trial db txn tuple page (.error fault) mid
  | full {frame : Frame} {mid : Database} : db.fetch txn page .write = (.ok frame, mid) →
      frame.page.freeCount = 0 →
      Trial db txn tuple page (.ok none)
        (if db.locks.holds txn page then mid else mid.releasePage txn page)
  | refused {frame : Frame} {mid : Database} {fault : Fault} :
      db.fetch txn page .write = (.ok frame, mid) → frame.page.freeCount ≠ 0 →
      frame.page.insert tuple = .error fault → Trial db txn tuple page (.error fault) mid
  | placed {frame : Frame} {mid : Database} {record : RecordId} {content : Page} :
      db.fetch txn page .write = (.ok frame, mid) → frame.page.freeCount ≠ 0 →
      frame.page.insert tuple = .ok (record, content) →
      Trial db txn tuple page (.ok (some record))
        { mid with cache := mid.cache.modify page fun _ => content.changed txn }

theorem trial (db : Database) (txn : TxnId) (tuple : Tuple) (page : PageId) :
    Trial db txn tuple page (db.tryPage txn tuple page).1 (db.tryPage txn tuple page).2 := by
  rw [tryPage]
  cases fetched : db.fetch txn page .write with
  | mk result mid =>
    cases result with
    | error fault => exact .unfetched fetched
    | ok frame =>
      simp only
      split
      · rename_i full
        exact .full fetched full
      · rename_i free
        cases inserted : frame.page.insert tuple with
        | error fault => exact .refused fetched free inserted
        | ok outcome => exact .placed fetched free inserted

theorem trial_of_eq {db db' : Database} {txn : TxnId} {tuple : Tuple} {page : PageId}
    {result : Except Fault (Option RecordId)} (h : db.tryPage txn tuple page = (result, db')) :
    Trial db txn tuple page result db' := by
  have trial := db.trial txn tuple page
  rwa [h] at trial

section Insertion
variable (grows : Table → Volume → Prop) {db : Database} (txn : TxnId) (tuple : Tuple)

theorem attempt_tryPage (keyed : db.cache.Keyed) (page : PageId) :
    Attempt grows txn (asRecord tuple) db (db.tryPage txn tuple page).1.toOption.join
      (db.tryPage txn tuple page).2 := by
  have trial := db.trial txn tuple page
  generalize (db.tryPage txn tuple page).1 = result, (db.tryPage txn tuple page).2 = db' at trial ⊢
  cases trial with
  | unfetched failed => exact .of_approach (.of_fetch failed)
  | full fetched _ =>
    have back (fresh : db.locks.holds txn page = false) :
        Approach grows txn db ((db.fetch txn page .write).2.releasePage txn page) :=
      .visit page .write .still fresh
    rw [fetched] at back
    cases fresh : db.locks.holds txn page with
    | true => exact .of_approach (.of_fetch fetched)
    | false => exact .of_approach (back fresh)
  | refused fetched _ _ => exact .of_approach (.of_fetch fetched)
  | placed fetched _ inserted =>
    have way : Approach grows txn db _ := .of_fetch fetched
    obtain ⟨cached, ⟨held, locked, covers⟩, -⟩ := fetch_eq_ok fetched
    obtain ⟨takes, rfl⟩ := Page.insert_eq_ok inserted
    have here := takes.page_eq.trans (way.keyed keyed cached)
    subst here
    cases LockMode.eq_exclusive_of_covers covers
    exact ⟨_, way, edit_modify cached locked takes⟩

theorem attempt_tryPages (keyed : db.cache.Keyed) (table : Table) (position left : Nat) :
    Attempt grows txn (asRecord tuple) db (db.tryPages table txn tuple position left).1.toOption.join
      (db.tryPages table txn tuple position left).2 := by
  induction left generalizing db position with
  | zero => exact .of_approach .still
  | succ left ih =>
    have first := attempt_tryPage grows txn tuple keyed (table.pageAt position)
    rw [tryPages]
    cases he : db.tryPage txn tuple (table.pageAt position) with
    | mk result mid =>
      rw [he] at first
      rcases result with fault | _ | record
      · exact first
      · exact .after first.approach (ih (first.approach.keyed keyed) (position + 1))
      · exact first

def endless : Except Fault RecordId → Bool
  | .error (.pageFull _) => true
  | _ => false

/-- Where page numbers have begun again, pages are added for ever. -/
theorem endless_tryAppended {table : Table} (full : 4294967296 ≤ table.pages db.volume)
    (limit : Nat) :
    endless (db.tryAppended table txn tuple (table.pages db.volume) limit).1 := by
  induction limit generalizing db with
  | zero => rfl
  | succ limit ih =>
    have same : table.pages (db.appendPage table).2.volume = table.pages db.volume :=
      table.pages_append_of_full full
    have again := @ih (db.appendPage table).2 (same ▸ full)
    simp only [tryAppended, same, Nat.sub_self, tryPages]
    rwa [same] at again

/-- Pages are added to the table only as long as they get numbers of their own, or for ever. -/
private theorem attempt_tryAppended (keyed : db.cache.Keyed) {table : Table} (limit : Nat)
    (may : ∀ v, table.pages v < 4294967296 ∨
      endless (db.tryAppended table txn tuple (table.pages db.volume) limit).1 → grows table v) :
    Attempt grows txn (asRecord tuple) db
      (db.tryAppended table txn tuple (table.pages db.volume) limit).1.toOption
      (db.tryAppended table txn tuple (table.pages db.volume) limit).2 := by
  induction limit generalizing db with
  | zero => exact .of_approach .still
  | succ limit ih =>
    have grown : Approach grows txn db (db.appendPage table).2 := by
      refine .append table .still (may db.volume ?_)
      rcases Nat.lt_or_ge (table.pages db.volume) 4294967296 with room | full
      · exact .inl room
      · exact .inr (endless_tryAppended txn tuple full (limit + 1))
    simp only [tryAppended] at may ⊢
    cases ha : db.appendPage table with
    | mk page added =>
      rw [ha] at grown may
      simp only at may ⊢
      have next (grows) := attempt_tryPages grows txn tuple (grown.keyed keyed) table
        (table.pages db.volume) (table.pages added.volume - table.pages db.volume)
      cases he : added.tryPages table txn tuple (table.pages db.volume)
          (table.pages added.volume - table.pages db.volume) with
      | mk result mid =>
        simp only [he] at next may ⊢
        rcases result with fault | _ | record
        · exact .after grown (next grows)
        · have way : Approach grows txn db mid := grown.trans (next grows).approach
          rw [← (next fun _ _ => False).volume_eq] at may ⊢
          exact .after way (ih (way.keyed keyed) may)
        · exact .after grown (next grows)

theorem attempt_insertInto (keyed : db.cache.Keyed) {table : Table}
    (may : ∀ v, table.pages v < 4294967296 ∨ endless (db.insertInto table txn tuple).1 →
      grows table v) :
    Attempt grows txn (asRecord tuple) db (db.insertInto table txn tuple).1.toOption
      (db.insertInto table txn tuple).2 := by
  rw [insertInto_eq] at may ⊢
  split at may
  · rename_i agrees
    rw [if_pos agrees]
    have first (grows) := attempt_tryPages grows txn tuple keyed table 0
      (table.pages db.volume)
    simp only at may ⊢
    cases he : db.tryPages table txn tuple 0 (table.pages db.volume) with
    | mk result mid =>
      simp only [he] at first may ⊢
      match result with
      | .error fault => exact first grows
      | .ok (some record) => exact first grows
      | .ok none =>
        have way := (first grows).approach
        rw [← (first fun _ _ => False).volume_eq] at may ⊢
        exact .after way (attempt_tryAppended grows txn tuple (way.keyed keyed) _ may)
  · rename_i differs
    rw [if_neg differs]
    exact .of_approach .still

private theorem keyed_insertInto (keyed : db.cache.Keyed) (table : Table) :
    (db.insertInto table txn tuple).2.cache.Keyed :=
  (attempt_insertInto (fun _ _ => True) txn tuple keyed fun _ _ => trivial).keyed keyed

/-- An insertion by number is one into the known table of that number. The page stays in the cache, and the tuple
that was passed names its record. -/
theorem insertTuple_eq (keyed : db.cache.Keyed) (id : TableId) : db.insertTuple txn id tuple =
    match db.catalog.table id with
    | .error fault => (.error fault, tuple, db)
    | .ok table =>
      match db.insertInto table txn tuple with
      | (.error fault, db) => (.error fault, tuple, db)
      | (.ok record, db) => (.ok record, { tuple with record := some record },
        { db with cache := (db.cache.access record.page).pin record.page }) :=
  insertTuple_of_keyed txn id tuple fun table _ => keyed_insertInto txn tuple keyed table

theorem insert_eq (keyed : db.cache.Keyed) (id : TableId) : db.insert txn id tuple =
    match db.catalog.table id with
    | .error fault => (.error fault, db)
    | .ok table =>
      match db.insertInto table txn tuple with
      | (.error fault, db) => (.error fault, db)
      | (.ok record, db) => (.ok record,
        { db with cache := (db.cache.access record.page).pin record.page }) := by
  rw [insert, insertTuple_eq txn tuple keyed]
  cases db.catalog.table id with
  | error fault => rfl
  | ok table =>
    simp only
    rcases db.insertInto table txn tuple with ⟨_ | record, after⟩ <;> rfl

/-- An insertion by number is one into the known table of that number. -/
theorem attempt_insert (keyed : db.cache.Keyed) (id : TableId)
    (may : ∀ table v, db.catalog.table id = .ok table →
      table.pages v < 4294967296 ∨ endless (db.insert txn id tuple).1 → grows table v) :
    Attempt grows txn (asRecord tuple) db (db.insert txn id tuple).1.toOption
      (db.insert txn id tuple).2 := by
  rw [insert_eq txn tuple keyed] at may ⊢
  cases ht : db.catalog.table id with
  | error fault => exact .of_approach .still
  | ok table =>
    rw [ht] at may
    simp only at may ⊢
    have into := @attempt_insertInto grows db txn tuple keyed table
    cases he : db.insertInto table txn tuple with
    | mk result after =>
      simp only [he] at into may ⊢
      cases result with
      | error fault => exact into fun v => may table v rfl
      | ok record =>
        obtain ⟨mid, way, edit⟩ := into fun v h => may table v rfl (h.imp_right nofun)
        exact ⟨mid, way, edit.pin record.page⟩

end Insertion

/-! ### Deletion -/

section Deletion
variable (grows : Table → Volume → Prop) (db : Database) (txn : TxnId) (record : Option RecordId)

theorem attempt_deleteFrom (table : Table) : Attempt grows txn (fun _ => none) db
    (db.deleteFrom table txn record).1.toOption (db.deleteFrom table txn record).2 := by
  cases record with
  | none => exact .of_approach .still
  | some r =>
    rw [deleteFrom_some]
    split
    · cases he : db.fetch txn r.page .write with
      | mk result mid =>
        have way : Approach grows txn db mid := .of_fetch he
        cases result with
        | error fault => exact .of_approach way
        | ok frame =>
          obtain ⟨cached, ⟨held, locked, covers⟩, -⟩ := fetch_eq_ok he
          simp only
          cases hd : frame.page.delete (some r) with
          | error fault => exact .of_approach way
          | ok content =>
            obtain ⟨takes, rfl⟩ := Page.delete_eq_ok hd
            cases LockMode.eq_exclusive_of_covers covers
            exact ⟨mid, way, edit_modify cached locked takes⟩
    · exact .of_approach .still

/-- A deletion by number is one from the known table of that number. The page stays in the cache. -/
theorem delete_some (keyed : db.cache.Keyed) (r : RecordId) : db.delete txn (some r) =
    match db.catalog.table r.page.table with
    | .error fault => (.error fault, db)
    | .ok table =>
      match db.deleteFrom table txn (some r) with
      | (.error fault, db) => (.error fault, db)
      | (.ok r, db) => (.ok r, { db with cache := (db.cache.access r.page).pin r.page }) :=
  delete_some_of_keyed txn r fun table =>
    (attempt_deleteFrom (fun _ _ => True) db txn (some r) table).keyed keyed

theorem attempt_delete (keyed : db.cache.Keyed) : Attempt grows txn (fun _ => none) db
    (db.delete txn record).1.toOption (db.delete txn record).2 := by
  cases record with
  | none => exact .of_approach .still
  | some r =>
    rw [delete_some db txn keyed]
    cases db.catalog.table r.page.table with
    | error fault => exact .of_approach .still
    | ok table =>
      have from_table := attempt_deleteFrom grows db txn (some r) table
      simp only
      cases he : db.deleteFrom table txn (some r) with
      | mk result after =>
        rw [he] at from_table
        cases result with
        | error fault => exact from_table
        | ok deleted =>
          obtain ⟨mid, way, edit⟩ := from_table
          exact ⟨mid, way, edit.pin deleted.page⟩

end Deletion

end Database

end PagedStore
