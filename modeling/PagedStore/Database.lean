import PagedStore.Cache
import PagedStore.Catalog
import PagedStore.Settings
import PagedStore.Locks

/-!
A database: tables in files, a cache of their pages, and locks that keep transactions apart. Each
operation returns its result and the database after it, whether it succeeds or fails.
-/
namespace PagedStore

structure Database where
  settings : Settings
  volume : Volume
  catalog : Catalog
  locks : Locks
  cache : Cache
  nextTxn : TxnId
  nextTable : Nat

namespace Database

def ofVolume (settings : Settings) (volume : Volume) : Except Fault Database :=
  if settings.pageSize = 0 ∨ settings.cachePages = 0 then
    .error (.emptyStore settings.pageSize settings.cachePages)
  else .ok ⟨settings, volume, .empty, .empty, .empty settings.cachePages, 1, 0⟩

/-! ### Tables -/

def openTable (db : Database) (place : Place) (schema : Schema) (pageSize : Nat) :
    Except Fault Table × Database :=
  match Table.openAt db.volume db.nextTable place schema pageSize with
  | .error fault => (.error fault, db)
  | .ok (table, volume) => (.ok table, { db with volume := volume, nextTable := db.nextTable + 1 })

def attachTable (db : Database) (place : Place) (schema : Schema) (pageSize : Nat)
    (name primaryKey : String) : Except Fault Table × Database :=
  match db.openTable place schema pageSize with
  | (.error fault, db) => (.error fault, db)
  | (.ok table, db) => (.ok table, { db with catalog := db.catalog.add table name primaryKey })

def createTable (db : Database) (place : Place) (schema : Schema) (name primaryKey : String) :
    Except Fault Table × Database :=
  db.attachTable place schema db.settings.pageSize name primaryKey

def clearCatalog (db : Database) : Database :=
  { db with catalog := .empty }

def appendPage (db : Database) (table : Table) : PageId × Database :=
  let (page, volume) := table.append db.volume
  (page, { db with volume := volume })

/-! ### Access to pages -/

def tryLock (db : Database) (txn : TxnId) (page : PageId) (mode : LockMode) : Bool × Database :=
  let (granted, locks) := db.locks.request txn page mode
  (granted, { db with locks := locks })

/-- Gives up waiting for a lock, because of a deadlock if there is one and deadlocks are looked for, and because
of the time it takes otherwise. -/
def giveUp (db : Database) (txn : TxnId) : Fault × Database :=
  let deadlocked := db.settings.policy = .waitsFor ∧ (db.locks.deadlock? txn).isSome
  (if deadlocked then .deadlock txn else .lockTimeout txn,
    { db with locks := db.locks.stopWaiting txn })

/-- Takes a lock, or gives up waiting for it. With nobody else acting in between, a lock that is denied stays
denied until the wait is given up. -/
def lock (db : Database) (txn : TxnId) (page : PageId) (mode : LockMode) :
    Except Fault Unit × Database :=
  match db.tryLock txn page mode with
  | (true, db) => (.ok (), db)
  | (false, db) =>
    let (fault, db) := db.giveUp txn
    (.error fault, db)

def load (db : Database) (page : PageId) : Except Fault Page :=
  match db.catalog.table page.table with
  | .error fault => .error fault
  | .ok table => table.load db.volume page

def store (db : Database) (page : Page) : Except Fault Volume :=
  match db.catalog.table page.id.table with
  | .error fault => .error fault
  | .ok table => table.store db.volume page

def provide (db : Database) (page : PageId) : Except Fault Frame × Database :=
  match db.cache.frames[page]? with
  | some frame => (.ok frame, { db with cache := db.cache.access page })
  | none =>
    match db.load page with
    | .error fault => (.error fault, db)
    | .ok content =>
      let (result, cache) := db.cache.bringIn content
      (result, { db with cache := cache })

/-- Locks a page and gets it from the cache. The lock stays if the page cannot be read. -/
def fetch (db : Database) (txn : TxnId) (page : PageId) (access : Access) :
    Except Fault Frame × Database :=
  match db.lock txn page access.mode with
  | (.error fault, db) => (.error fault, db)
  | (.ok (), db) => db.provide page

def releasePage (db : Database) (txn : TxnId) (page : PageId) : Database :=
  { db with locks := db.locks.release txn page }

def loadLoose (db : Database) (table : Table) (page : PageId) : Except Fault Handle × Database :=
  match table.load db.volume page with
  | .error fault => (.error fault, db)
  | .ok content =>
    let (handle, cache) := db.cache.keepLoose content
    (.ok handle, { db with cache := cache })

/-- Writes a copy of a page to the file of an opened table. The copy is clean afterwards. -/
def storeHeld (db : Database) (table : Table) (handle : Handle) (page : Page) :
    Except Fault Unit × Database :=
  match table.store db.volume page with
  | .error fault => (.error fault, db)
  | .ok volume =>
    (.ok (), { db with volume := volume, cache := db.cache.modifyHeld handle Page.cleaned })

end Database

end PagedStore
