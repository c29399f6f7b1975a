import PagedStore.Database

/-!
Insertion and deletion of tuples. A tuple goes into the first page with a free slot; a page is added when all are
full. An insertion returns the tuple that was passed as well, which names its record once it is one.
-/
namespace PagedStore

structure Placed where
  record : RecordId
  copy : Handle

/-- An insertion under way: the position of the next page to try, and how many pages the table had when they were
counted, if they are counted. Between its turns others may act. -/
structure Insertion where
  table : Table
  txn : TxnId
  tuple : Tuple
  position : Nat
  known : Option Nat

/-- What a turn of an insertion comes to. One that is denied a lock is to be taken again, or given up. -/
inductive Insertion.Turn where
  | goesOn (next : Insertion)
  | waits
  | ends (result : Except Fault RecordId) (tuple : Tuple)

namespace Database

/-- Puts a tuple into a page that was fetched, unless the page is full. A full page is unlocked again if the
transaction had no lock on it before. -/
def putInto (db : Database) (txn : TxnId) (tuple : Tuple) (heldBefore : Bool) (page : PageId)
    (frame : Frame) : Except Fault (Option Placed) × Tuple × Database :=
  if frame.page.freeCount = 0 then
    (.ok none, tuple, if heldBefore then db else db.releasePage txn page)
  else
    match frame.page.put tuple with
    | (.error fault, tuple, _) => (.error fault, tuple, db)
    | (.ok record, tuple, content) =>
      (.ok (some ⟨record, ⟨page, frame.serial⟩⟩), tuple, { db with
        cache := db.cache.modify page fun _ => content.changed txn })

def placeOnPage (db : Database) (txn : TxnId) (tuple : Tuple) (page : PageId) :
    Except Fault (Option Placed) × Tuple × Database :=
  let heldBefore := db.locks.holds txn page
  match db.fetch txn page .write with
  | (.error fault, db) => (.error fault, tuple, db)
  | (.ok frame, db) => db.putInto txn tuple heldBefore page frame

/-- Puts a tuple into the first page that is not full of the given number of pages from a position on. -/
def placeOnPages (db : Database) (table : Table) (txn : TxnId) (tuple : Tuple) (position : Nat) :
    Nat → Except Fault (Option Placed) × Tuple × Database
  | 0 => (.ok none, tuple, db)
  | left + 1 =>
    match db.placeOnPage txn tuple (table.pageAt position) with
    | (.ok none, tuple, db) => db.placeOnPages table txn tuple (position + 1) left
    | outcome => outcome

/-- Adds pages to a table of the given number of pages until a tuple goes into one, at most so many as the limit
says. An added page may be full if an outdated copy of it is still cached. -/
def placeOnAdded (db : Database) (table : Table) (txn : TxnId) (tuple : Tuple) (position : Nat) :
    Nat → Except Fault Placed × Tuple × Database
  | 0 => (.error (.pageFull (table.pageAt position)), tuple, db)
  | limit + 1 =>
    let (_, db) := db.appendPage table
    let pages := table.pages db.volume
    match db.placeOnPages table txn tuple position (pages - position) with
    | (.error fault, tuple, db) => (.error fault, tuple, db)
    | (.ok (some placed), tuple, db) => (.ok placed, tuple, db)
    | (.ok none, tuple, db) => db.placeOnAdded table txn tuple pages limit

/-- How many pages are added at most before one has a free slot: an added page can be full only if it
is cached or if the known table of that number has smaller pages, so that its content is old. -/
def appendLimit (db : Database) (table : Table) : Nat :=
  db.cache.frames.size + (db.volume.content table.id).length + 1

/-- Puts a tuple into an opened table. The page changed is marked dirty but not pinned. -/
def place (db : Database) (table : Table) (txn : TxnId) (tuple : Tuple) :
    Except Fault Placed × Tuple × Database :=
  if tuple.schema.agrees table.schema then
    let pages := table.pages db.volume
    match db.placeOnPages table txn tuple 0 pages with
    | (.error fault, tuple, db) => (.error fault, tuple, db)
    | (.ok (some placed), tuple, db) => (.ok placed, tuple, db)
    | (.ok none, tuple, db) => db.placeOnAdded table txn tuple pages (db.appendLimit table)
  else (.error (.schemaConflict table.id), tuple, db)

def insertInto (db : Database) (table : Table) (txn : TxnId) (tuple : Tuple) :
    Except Fault RecordId × Database :=
  let (result, _, db) := db.place table txn tuple
  (result.map Placed.record, db)

def keep (db : Database) (txn : TxnId) (placed : Placed) : Except Fault RecordId × Database :=
  match db.cache.keepChanged placed.copy txn with
  | (.error fault, cache) => (.error fault, { db with cache := cache })
  | (.ok (), cache) => (.ok placed.record, { db with cache := cache })

def insertTuple (db : Database) (txn : TxnId) (table : TableId) (tuple : Tuple) :
    Except Fault RecordId × Tuple × Database :=
  match db.catalog.table table with
  | .error fault => (.error fault, tuple, db)
  | .ok table =>
    match db.place table txn tuple with
    | (.error fault, tuple, db) => (.error fault, tuple, db)
    | (.ok placed, tuple, db) =>
      let (result, db) := db.keep txn placed
      (result, tuple, db)

def insert (db : Database) (txn : TxnId) (table : TableId) (tuple : Tuple) :
    Except Fault RecordId × Database :=
  let (result, _, db) := db.insertTuple txn table tuple
  (result, db)

/-! ### Insertions under way -/

def startInsertion (db : Database) (txn : TxnId) (table : TableId) (tuple : Tuple) :
    Except Fault Insertion :=
  match db.catalog.table table with
  | .error fault => .error fault
  | .ok table =>
    if tuple.schema.agrees table.schema then .ok ⟨table, txn, tuple, 0, none⟩
    else .error (.schemaConflict table.id)

def visitNext (db : Database) (i : Insertion) : Insertion.Turn × Database :=
  let page := i.table.pageAt i.position
  let heldBefore := db.locks.holds i.txn page
  match db.tryLock i.txn page Access.write.mode with
  | (false, db) => (.waits, db)
  | (true, db) =>
    match db.provide page with
    | (.error fault, db) => (.ends (.error fault) i.tuple, db)
    | (.ok frame, db) =>
      match db.putInto i.txn i.tuple heldBefore page frame with
      | (.error fault, tuple, db) => (.ends (.error fault) tuple, db)
      | (.ok none, tuple, db) => (.goesOn { i with tuple, position := i.position + 1 }, db)
      | (.ok (some placed), tuple, db) =>
        let (result, db) := db.keep i.txn placed
        (.ends result tuple, db)

/-- A turn of an insertion: the pages of the table are counted, or one of those counted is tried, or a page is
added after they have all been full. -/
def takeTurn (db : Database) (i : Insertion) : Insertion.Turn × Database :=
  match i.known with
  | none => (.goesOn { i with known := some (i.table.pages db.volume) }, db)
  | some pages =>
    if i.position < pages then db.visitNext i
    else (.goesOn { i with known := none }, (db.appendPage i.table).2)

/-! ### Deletion -/

/-- Empties the slot of a record of an opened table. The page changed is marked dirty but not pinned. -/
def remove (db : Database) (table : Table) (txn : TxnId) (record : Option RecordId) :
    Except Fault Placed × Database :=
  match record with
  | none => (.error (.noSuchRecord none), db)
  | some r =>
    if r.page.table = table.id ∧ r.page.number < table.pages db.volume then
      match db.fetch txn r.page .write with
      | (.error fault, db) => (.error fault, db)
      | (.ok frame, db) =>
        match frame.page.delete record with
        | .error fault => (.error fault, db)
        | .ok content =>
          (.ok ⟨r, ⟨r.page, frame.serial⟩⟩, { db with
            cache := db.cache.modify r.page fun _ => content.changed txn })
    else (.error (.noSuchRecord record), db)

def deleteFrom (db : Database) (table : Table) (txn : TxnId) (record : Option RecordId) :
    Except Fault RecordId × Database :=
  let (result, db) := db.remove table txn record
  (result.map Placed.record, db)

def delete (db : Database) (txn : TxnId) (record : Option RecordId) :
    Except Fault RecordId × Database :=
  match record with
  | none => (.error (.noSuchRecord none), db)
  | some r =>
    match db.catalog.table r.page.table with
    | .error fault => (.error fault, db)
    | .ok table =>
      match db.remove table txn record with
      | (.error fault, db) => (.error fault, db)
      | (.ok placed, db) => db.keep txn placed

end Database

end PagedStore
