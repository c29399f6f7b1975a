import Std.Data.ExtTreeMap
import Std.Data.ExtTreeSet

/-!
Names of tables, pages, records and transactions, with the order in which lists of them are given.
-/
namespace PagedStore

abbrev TableId := Nat

abbrev TxnId := Nat

/-- The number of the page at a position of a file. Page numbers have 32 bits, so that in a file of
more pages they begin again at zero. -/
def pageNumber (position : Nat) : Nat :=
  position % 4294967296

structure PageId where
  table : TableId
  number : Nat
deriving DecidableEq

structure RecordId where
  page : PageId
  slot : Nat
deriving DecidableEq

def TxnId.render (t : TxnId) : String :=
  s!"txn:{t}"

namespace PageId

def render (p : PageId) : String :=
  s!"page {p.table}:{p.number}"

instance : Ord PageId where
  compare := compareLex (compareOn PageId.table) (compareOn PageId.number)

instance : Std.TransOrd PageId :=
  inferInstanceAs (Std.TransCmp (compareLex (compareOn PageId.table) (compareOn PageId.number)))

instance : Std.LawfulEqOrd PageId where
  eq_of_compare {a b} h := by
    change (compareLex (compareOn PageId.table) (compareOn PageId.number) a b) = .eq at h
    simp only [compareLex_eq_eq, compareOn, Std.LawfulEqCmp.compare_eq_iff_eq] at h
    cases a
    cases b
    simp_all

end PageId

namespace RecordId

def render (r : RecordId) : String :=
  s!"{r.page.render}/slot {r.slot}"

def details (r : RecordId) : String :=
  "RecordId \x7b page_id: PageId \x7b " ++ s!"table_id: {r.page.table}, page_no: {r.page.number}" ++
    " \x7d, " ++ s!"slot: {r.slot}" ++ " \x7d"

def detailsOf : Option RecordId → String
  | some r => s!"Some({r.details})"
  | none => "None"

end RecordId

end PagedStore
