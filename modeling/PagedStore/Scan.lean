import PagedStore.Database

/-!
Scans of a table, page by page and slot by slot. A page is fetched when its first tuple is asked for.
-/
namespace PagedStore

/-- A scan: the position of the next page to fetch, and the tuples of the last one still to come. -/
structure Scan where
  table : Table
  txn : TxnId
  next : Nat
  pending : List Tuple
  isOpen : Bool

namespace Scan

def ofTable (table : Table) (txn : TxnId) : Scan :=
  ⟨table, txn, 0, [], false⟩

def start (s : Scan) : Scan :=
  { s with next := 0, pending := [], isOpen := true }

def close (s : Scan) : Scan :=
  { s with pending := [], isOpen := false }

def restart (s : Scan) : Scan :=
  s.close.start

def advance (db : Database) (s : Scan) : Nat → Except Fault Bool × Scan × Database
  | 0 => (.ok (!s.pending.isEmpty), s, db)
  | left + 1 =>
    match s.pending with
    | _ :: _ => (.ok true, s, db)
    | [] =>
      match db.fetch s.txn (s.table.pageAt s.next) .read with
      | (.error fault, db) => (.error fault, s, db)
      | (.ok frame, db) =>
        advance db { s with next := s.next + 1, pending := frame.page.tuples } left

def pagesLeft (s : Scan) (db : Database) : Nat :=
  s.table.pages db.volume - s.next

/-- Whether there is a tuple to come. A page that cannot be fetched leaves the scan open. -/
def hasMore (s : Scan) (db : Database) : Except Fault Bool × Scan × Database :=
  if s.isOpen then advance db s (s.pagesLeft db) else (.ok false, s, db)

def step (s : Scan) (db : Database) : Option (Except Fault Tuple) × Scan × Database :=
  match s.hasMore db with
  | (.error fault, s, db) => (some (.error fault), s.close, db)
  | (.ok false, s, db) => (none, s, db)
  | (.ok true, s, db) =>
    match s.pending with
    | [] => (none, s, db)
    | tuple :: pending => (some (.ok tuple), { s with pending := pending }, db)

def collectPages (db : Database) (s : Scan) :
    Nat → List (Except Fault Tuple) × Scan × Database
  | 0 => (s.pending.map .ok, { s with pending := [] }, db)
  | left + 1 =>
    match db.fetch s.txn (s.table.pageAt s.next) .read with
    | (.error fault, db) => (s.pending.map .ok ++ [.error fault], s.close, db)
    | (.ok frame, db) =>
      let (tuples, last, db) :=
        collectPages db { s with next := s.next + 1, pending := frame.page.tuples } left
      (s.pending.map .ok ++ tuples, last, db)

/-- All that the scan still yields: the results of steps up to the first without one. -/
def collect (s : Scan) (db : Database) : List (Except Fault Tuple) × Scan × Database :=
  if s.isOpen then collectPages db s (s.pagesLeft db) else ([], s, db)

end Scan

def Database.scan (db : Database) (txn : TxnId) (table : TableId) : Except Fault Scan :=
  (db.catalog.table table).map fun table => (Scan.ofTable table txn).start

end PagedStore
