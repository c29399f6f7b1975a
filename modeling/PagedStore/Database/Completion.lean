import PagedStore.Database

/-!
The end of transactions. A commit writes the pages that the transaction changed, an abort reads them
again; either way its locks are released.
-/
namespace PagedStore.Database

def begin (db : Database) : TxnId × Database :=
  (db.nextTxn, { db with nextTxn := db.nextTxn + 1 })

def writeOut (db : Database) (page : PageId) : Except Fault Unit × Database :=
  match db.cache.page? page with
  | none => (.ok (), db)
  | some content =>
    match db.store content with
    | .error fault => (.error fault, db)
    | .ok volume =>
      (.ok (), { db with
        volume := volume
        cache := (db.cache.modify page Page.cleaned).unpin page })

def dropPage (db : Database) (page : PageId) : Database :=
  { db with cache := db.cache.drop page }

/-- Writes a cached page to its file; a page that cannot be written leaves the cache. -/
def commitPage (db : Database) (page : PageId) : Except Fault Unit × Database :=
  match db.writeOut page with
  | (.error fault, db) => (.error fault, db.dropPage page)
  | outcome => outcome

/-- Replaces a cached page by what is in its file; a page that cannot be read leaves the cache. -/
def revertPage (db : Database) (page : PageId) : Except Fault Unit × Database :=
  match db.load page with
  | .error fault => (.error fault, db.dropPage page)
  | .ok content =>
    (.ok (), { db with cache := (db.cache.modify page fun _ => content).unpin page })

def forEachPage (step : Database → PageId → Except Fault Unit × Database) (db : Database) :
    List PageId → Except Fault Unit × Database
  | [] => (.ok (), db)
  | page :: pages =>
    let (first, db) := step db page
    let (others, db) := forEachPage step db pages
    (match first with
      | .error fault => .error fault
      | .ok () => others, db)

/-- Ends a transaction whose changed pages are given in the order in which to visit them. -/
def completeIn (db : Database) (txn : TxnId) (commit : Bool) (pages : List PageId) :
    Except Fault Unit × Database :=
  let (result, db) := forEachPage (if commit then commitPage else revertPage) db pages
  (result, { db with locks := db.locks.forget txn })

def complete (db : Database) (txn : TxnId) (commit : Bool) : Except Fault Unit × Database :=
  db.completeIn txn commit (db.cache.dirtyPagesOf txn)

def commit (db : Database) (txn : TxnId) : Except Fault Unit × Database :=
  db.complete txn true

def abort (db : Database) (txn : TxnId) : Except Fault Unit × Database :=
  db.complete txn false

/-- Gives a transaction up that was not ended: it is undone, and nobody is told of a fault. -/
def abandon (db : Database) (txn : TxnId) : Database :=
  (db.abort txn).2

def flushTxn (db : Database) (txn : TxnId) : Except Fault Unit × Database :=
  forEachPage commitPage db (db.cache.dirtyPagesOf txn)

def writeOutAll (db : Database) : List PageId → Except Fault Unit × Database
  | [] => (.ok (), db)
  | page :: pages =>
    match db.writeOut page with
    | (.error fault, db) => (.error fault, db)
    | (.ok (), db) => db.writeOutAll pages

def flushAll (db : Database) : Except Fault Unit × Database :=
  db.writeOutAll db.cache.dirtyPages

def flush (db : Database) (page : PageId) : Except Fault Unit × Database :=
  if (db.cache.page? page).any Page.isDirty then db.writeOut page else (.ok (), db)

end PagedStore.Database
