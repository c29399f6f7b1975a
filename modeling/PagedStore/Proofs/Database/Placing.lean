import PagedStore.Database.Update
import PagedStore.Proofs.Database.Fetch
import PagedStore.Proofs.Page.Update

/-! Insertions apart from the tuple that was passed and the copy of the page that was changed. The ways that a tuple
takes from page to page are told in this form. -/
namespace PagedStore

def Placed.Lies (p : Placed) (txn : TxnId) (db : Database) : Prop :=
  ∃ frame, db.cache.frames[p.copy.page]? = some frame ∧ frame.serial = p.copy.serial ∧
    frame.page.changedBy = some txn ∧ frame.page.id = p.record.page

namespace Database

/-- Puts a tuple into a page unless the page is full. A full page is unlocked again if the
transaction had no lock on it before. -/
def tryPage (db : Database) (txn : TxnId) (tuple : Tuple) (page : PageId) :
    Except Fault (Option RecordId) × Database :=
  let heldBefore := db.locks.holds txn page
  match db.fetch txn page .write with
  | (.error fault, db) => (.error fault, db)
  | (.ok frame, db) =>
    if frame.page.freeCount = 0 then
      (.ok none, if heldBefore then db else db.releasePage txn page)
    else
      match frame.page.insert tuple with
      | .error fault => (.error fault, db)
      | .ok (record, content) =>
        (.ok (some record), { db with
          cache := db.cache.modify page fun _ => content.changed txn })

def tryPages (db : Database) (table : Table) (txn : TxnId) (tuple : Tuple) (position : Nat) :
    Nat → Except Fault (Option RecordId) × Database
  | 0 => (.ok none, db)
  | left + 1 =>
    match db.tryPage txn tuple (table.pageAt position) with
    | (.ok none, db) => db.tryPages table txn tuple (position + 1) left
    | outcome => outcome

def tryAppended (db : Database) (table : Table) (txn : TxnId) (tuple : Tuple) (position : Nat) :
    Nat → Except Fault RecordId × Database
  | 0 => (.error (.pageFull (table.pageAt position)), db)
  | limit + 1 =>
    let (_, db) := db.appendPage table
    let pages := table.pages db.volume
    match db.tryPages table txn tuple position (pages - position) with
    | (.error fault, db) => (.error fault, db)
    | (.ok (some record), db) => (.ok record, db)
    | (.ok none, db) => db.tryAppended table txn tuple pages limit

/-- What trying pages leaves of the tuple: as long as it is nowhere it is as it was passed, and then it names its
record. -/
inductive Tells (txn : TxnId) (tuple : Tuple) :
    Except Fault (Option Placed) × Tuple × Database → Except Fault (Option RecordId) × Database → Prop
  | failed {fault : Fault} {db : Database} : Tells txn tuple (.error fault, tuple, db) (.error fault, db)
  | passed {db : Database} : Tells txn tuple (.ok none, tuple, db) (.ok none, db)
  | placed {p : Placed} {db : Database} : p.Lies txn db →
      Tells txn tuple (.ok (some p), { tuple with record := some p.record }, db) (.ok (some p.record), db)

inductive Leaves (txn : TxnId) (tuple : Tuple) :
    Except Fault Placed × Tuple × Database → Except Fault RecordId × Database → Prop
  | failed {fault : Fault} {db : Database} : Leaves txn tuple (.error fault, tuple, db) (.error fault, db)
  | placed {p : Placed} {db : Database} : p.Lies txn db →
      Leaves txn tuple (.ok p, { tuple with record := some p.record }, db) (.ok p.record, db)

section Insertion
variable (db : Database) (txn : TxnId) (tuple : Tuple) (table : Table)

private theorem tells_putInto {db : Database} {page : PageId} {frame : Frame}
    (cached : db.cache.frames[page]? = some frame) (heldBefore : Bool) :
    Tells txn tuple (db.putInto txn tuple heldBefore page frame)
      (if frame.page.freeCount = 0 then
        (.ok none, if heldBefore then db else db.releasePage txn page)
      else
        match frame.page.insert tuple with
        | .error fault => (.error fault, db)
        | .ok (record, content) =>
          (.ok (some record), { db with
            cache := db.cache.modify page fun _ => content.changed txn })) := by
  rw [putInto]
  split
  · exact .passed
  · rw [Page.put_eq]
    cases inserted : frame.page.insert tuple with
    | error fault => exact .failed
    | ok outcome =>
      obtain ⟨takes, same⟩ := Page.insert_eq_ok inserted
      refine .placed (p := ⟨outcome.1, page, frame.serial⟩)
        ⟨{ frame with page := outcome.2.changed txn }, ?_, rfl, rfl, ?_⟩
      · exact (Cache.frames_modify _ _ _ _).trans (by rw [if_pos rfl, cached]; rfl)
      · rw [takes.page_eq, same]
        rfl

theorem tells_placeOnPage (page : PageId) :
    Tells txn tuple (db.placeOnPage txn tuple page) (db.tryPage txn tuple page) := by
  rw [placeOnPage, tryPage]
  cases fetched : db.fetch txn page .write with
  | mk result mid =>
    cases result with
    | error fault => exact .failed
    | ok frame => exact tells_putInto txn tuple (fetch_eq_ok fetched).1 _

private theorem tells_placeOnPages (position left : Nat) :
    Tells txn tuple (db.placeOnPages table txn tuple position left)
      (db.tryPages table txn tuple position left) := by
  induction left generalizing db position with
  | zero => exact .passed
  | succ left ih =>
    have first := db.tells_placeOnPage txn tuple (table.pageAt position)
    rw [placeOnPages, tryPages]
    generalize db.placeOnPage txn tuple (table.pageAt position) = outcome,
      db.tryPage txn tuple (table.pageAt position) = told at first ⊢
    cases first with
    | failed => exact .failed
    | passed => exact ih _ (position + 1)
    | placed lies => exact .placed lies

private theorem leaves_placeOnAdded (position limit : Nat) :
    Leaves txn tuple (db.placeOnAdded table txn tuple position limit)
      (db.tryAppended table txn tuple position limit) := by
  induction limit generalizing db position with
  | zero => exact .failed
  | succ limit ih =>
    rw [placeOnAdded, tryAppended]
    generalize db.appendPage table = grown
    simp only
    generalize table.pages grown.2.volume = pages
    have next := grown.2.tells_placeOnPages txn tuple table position (pages - position)
    generalize grown.2.placeOnPages table txn tuple position (pages - position) = outcome,
      grown.2.tryPages table txn tuple position (pages - position) = told at next ⊢
    cases next with
    | failed => exact .failed
    | passed => exact ih _ pages
    | placed lies => exact .placed lies

private theorem leaves_place : Leaves txn tuple (db.place table txn tuple)
    (if tuple.schema.agrees table.schema then
      let pages := table.pages db.volume
      match db.tryPages table txn tuple 0 pages with
      | (.error fault, db) => (.error fault, db)
      | (.ok (some record), db) => (.ok record, db)
      | (.ok none, db) => db.tryAppended table txn tuple pages (db.appendLimit table)
    else (.error (.schemaConflict table.id), db)) := by
  rw [place]
  split
  · have first := db.tells_placeOnPages txn tuple table 0 (table.pages db.volume)
    simp only
    generalize db.placeOnPages table txn tuple 0 (table.pages db.volume) = outcome,
      db.tryPages table txn tuple 0 (table.pages db.volume) = told at first ⊢
    cases first with
    | failed => exact .failed
    | passed => exact leaves_placeOnAdded _ txn tuple table _ _
    | placed lies => exact .placed lies
  · exact .failed

/-- An insertion tries the pages there are, and then pages that are added. -/
theorem insertInto_eq : db.insertInto table txn tuple =
    if tuple.schema.agrees table.schema then
      let pages := table.pages db.volume
      match db.tryPages table txn tuple 0 pages with
      | (.error fault, db) => (.error fault, db)
      | (.ok (some record), db) => (.ok record, db)
      | (.ok none, db) => db.tryAppended table txn tuple pages (db.appendLimit table)
    else (.error (.schemaConflict table.id), db) := by
  have leaves := db.leaves_place txn tuple table
  rw [insertInto]
  generalize db.place table txn tuple = outcome at leaves ⊢
  generalize (if tuple.schema.agrees table.schema then _ else _) = told at leaves ⊢
  cases leaves <;> rfl

private theorem leaves_insertInto :
    Leaves txn tuple (db.place table txn tuple) (db.insertInto table txn tuple) := by
  rw [insertInto_eq]
  exact db.leaves_place txn tuple table

end Insertion

/-- A page that was just changed is the cached copy, which is kept. -/
theorem keep_of_lies {db : Database} {txn : TxnId} {p : Placed} (keyed : db.cache.Keyed)
    (lies : p.Lies txn db) :
    db.keep txn p = (.ok p.record,
      { db with cache := (db.cache.access p.record.page).pin p.record.page }) := by
  obtain ⟨frame, cached, serial, changed, own⟩ := lies
  rw [keep, Cache.keepChanged_of_current cached serial changed, ← own, keyed cached]

/-- An insertion into a known table is kept. -/
theorem insertTuple_of_keyed {db : Database} (txn : TxnId) (id : TableId) (tuple : Tuple)
    (keyed : ∀ table, db.catalog.table id = .ok table → (db.insertInto table txn tuple).2.cache.Keyed) :
    db.insertTuple txn id tuple =
      match db.catalog.table id with
      | .error fault => (.error fault, tuple, db)
      | .ok table =>
        match db.insertInto table txn tuple with
        | (.error fault, db) => (.error fault, tuple, db)
        | (.ok record, db) => (.ok record, { tuple with record := some record },
          { db with cache := (db.cache.access record.page).pin record.page }) := by
  rw [insertTuple]
  cases known : db.catalog.table id with
  | error fault => rfl
  | ok table =>
    have leaves := db.leaves_insertInto txn tuple table
    have keyed := keyed table known
    simp only
    generalize db.place table txn tuple = outcome, db.insertInto table txn tuple = told at leaves keyed ⊢
    cases leaves with
    | failed => rfl
    | placed lies => simp only [keep_of_lies keyed lies]

/-! ### Deletion -/

section Deletion
variable (db : Database) (table : Table) (txn : TxnId)

/-- A deletion fetches the page and empties the slot. -/
theorem deleteFrom_some (r : RecordId) : db.deleteFrom table txn (some r) =
    if r.page.table = table.id ∧ r.page.number < table.pages db.volume then
      match db.fetch txn r.page .write with
      | (.error fault, db) => (.error fault, db)
      | (.ok frame, db) =>
        match frame.page.delete (some r) with
        | .error fault => (.error fault, db)
        | .ok content =>
          (.ok r, { db with cache := db.cache.modify r.page fun _ => content.changed txn })
    else (.error (.noSuchRecord (some r)), db) := by
  by_cases inside : r.page.table = table.id ∧ r.page.number < table.pages db.volume
  · simp only [deleteFrom, remove, if_pos inside]
    rcases db.fetch txn r.page .write with ⟨_ | frame, mid⟩
    · rfl
    · simp only
      cases frame.page.delete (some r) <;> rfl
  · simp only [deleteFrom, remove, if_neg inside]
    rfl

private theorem remove_eq_ok {db db' : Database} {record : Option RecordId} {p : Placed}
    (removed : db.remove table txn record = (.ok p, db')) : p.Lies txn db' := by
  cases record with
  | none => cases removed
  | some r =>
    rw [remove] at removed
    split at removed
    · cases fetched : db.fetch txn r.page .write with
      | mk result mid =>
        rw [fetched] at removed
        cases result with
        | error fault => cases removed
        | ok frame =>
          simp only at removed
          cases emptied : frame.page.delete (some r) with
          | error fault =>
            rw [emptied] at removed
            cases removed
          | ok content =>
            rw [emptied] at removed
            cases removed
            obtain ⟨takes, same⟩ := Page.delete_eq_ok emptied
            refine ⟨{ frame with page := content.changed txn }, ?_, rfl, rfl, ?_⟩
            · exact (Cache.frames_modify _ _ _ _).trans (by rw [if_pos rfl, (fetch_eq_ok fetched).1]; rfl)
            · rw [takes.page_eq, same]
              rfl
    · cases removed

/-- A deletion from a known table is kept. -/
theorem delete_some_of_keyed {db : Database} (txn : TxnId) (r : RecordId)
    (keyed : ∀ table, (db.deleteFrom table txn (some r)).2.cache.Keyed) :
    db.delete txn (some r) =
      match db.catalog.table r.page.table with
      | .error fault => (.error fault, db)
      | .ok table =>
        match db.deleteFrom table txn (some r) with
        | (.error fault, db) => (.error fault, db)
        | (.ok r, db) => (.ok r, { db with cache := (db.cache.access r.page).pin r.page }) := by
  rw [delete]
  cases db.catalog.table r.page.table with
  | error fault => rfl
  | ok table =>
    have keyed := keyed table
    simp only
    rw [deleteFrom] at keyed ⊢
    cases removed : db.remove table txn (some r) with
    | mk result mid =>
      rw [removed] at keyed
      cases result with
      | error fault => rfl
      | ok p => exact keep_of_lies keyed (remove_eq_ok table txn removed)

end Deletion

end Database

end PagedStore
