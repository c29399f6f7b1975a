import PagedStore.Locks.WaitGraph

/-!
Shared and exclusive page locks. A request is granted or denied at once; a denial is remembered as
waits for the holders in the way.
-/
namespace PagedStore

inductive LockMode where
  | shared
  | exclusive
deriving DecidableEq

namespace LockMode

def conflicts : LockMode → LockMode → Bool
  | shared, shared => false
  | _, _ => true

def covers : LockMode → LockMode → Bool
  | shared, exclusive => false
  | _, _ => true

end LockMode

inductive Access where
  | read
  | write
deriving DecidableEq

def Access.mode : Access → LockMode
  | read => .shared
  | write => .exclusive

/-- The locks on pages, the pages locked by each transaction, and the waits of transactions whose
latest request was denied. -/
structure Locks where
  holders : Std.ExtTreeMap PageId (Std.ExtTreeMap TxnId LockMode)
  held : Std.ExtTreeMap TxnId (Std.ExtTreeSet PageId)
  waits : WaitGraph

namespace Locks

def empty : Locks :=
  ⟨∅, ∅, ∅⟩

def holdersOf (l : Locks) (page : PageId) : Std.ExtTreeMap TxnId LockMode :=
  l.holders[page]?.getD ∅

def mode? (l : Locks) (txn : TxnId) (page : PageId) : Option LockMode :=
  (l.holdersOf page)[txn]?

def holds (l : Locks) (txn : TxnId) (page : PageId) : Bool :=
  (l.mode? txn page).isSome

def pagesOf (l : Locks) (txn : TxnId) : List PageId :=
  (l.held[txn]?.getD ∅).toList

/-- The other transactions whose lock on a page conflicts with a mode, in ascending order. -/
def blockers (l : Locks) (txn : TxnId) (page : PageId) (mode : LockMode) : List TxnId :=
  ((l.holdersOf page).toList.filter fun (holder, lock) =>
    holder ≠ txn && mode.conflicts lock).map Prod.fst

def put (l : Locks) (txn : TxnId) (page : PageId) (mode : LockMode) : Locks :=
  { l with
    holders := l.holders.insert page ((l.holdersOf page).insert txn mode)
    held := l.held.insert txn ((l.held[txn]?.getD ∅).insert page) }

def stopWaiting (l : Locks) (txn : TxnId) : Locks :=
  { l with waits := l.waits.erase txn }

/-- Requests a lock. It is granted if the transaction has as strong a lock already or nobody is in
the way. -/
def request (l : Locks) (txn : TxnId) (page : PageId) (mode : LockMode) : Bool × Locks :=
  if (l.mode? txn page).any (·.covers mode) then (true, l.stopWaiting txn)
  else
    match l.blockers txn page mode with
    | [] => (true, (l.put txn page mode).stopWaiting txn)
    | blockers => (false, { l with waits := l.waits.insert txn blockers })

def release (l : Locks) (txn : TxnId) (page : PageId) : Locks :=
  { l with
    holders := l.holders.alter page fun holders? =>
      holders?.bind fun holders =>
        let left := holders.erase txn
        if left.isEmpty then none else some left
    held := l.held.alter txn fun pages? =>
      pages?.bind fun pages =>
        let left := pages.erase page
        if left.isEmpty then none else some left }

def forget (l : Locks) (txn : TxnId) : Locks :=
  (l.pagesOf txn).foldl (fun l page => l.release txn page) (l.stopWaiting txn)

def deadlock? (l : Locks) (txn : TxnId) : Option (List TxnId) :=
  l.waits.cycle? txn

end Locks

end PagedStore
