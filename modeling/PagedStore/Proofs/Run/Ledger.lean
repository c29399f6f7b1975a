import PagedStore.Proofs.Run.Changes

/-! What a run is meant to leave on disk and to show to each transaction. -/
namespace PagedStore

def Tuple.row (tuple : Tuple) : List Value :=
  tuple.stored.values

def Page.keptRow? (p : Page) (slot : Nat) : Option (List Value) :=
  (p.tuple? slot).map Tuple.row

theorem Page.row?_stored_eq (p : Page) (slot : Nat) : p.stored.row? slot = p.keptRow? slot := by
  rw [row?_stored, row?, keptRow?]
  cases p.tuple? slot <;> rfl

theorem Page.Shown.keptRow?_eq {id : PageId} {schema : Schema} {size : Nat} {p : Page}
    (h : Shown id schema size p) (slot : Nat) : p.keptRow? slot = p.row? slot := by
  rw [← row?_stored_eq, h.kept]

theorem Page.keptRow?_withSlot {p : Page} {slot : Nat} (inside : slot < p.slots.length)
    (content : Option Tuple) (other : Nat) : (p.withSlot slot content).keptRow? other =
      if other = slot then content.map Tuple.row else p.keptRow? other := by
  rw [keptRow?, tuple?_withSlot inside]
  split <;> rfl

def Database.contents (db : Database) : RecordId → Option (List Value) := fun record =>
  match db.load record.page with
  | .ok page => page.row? record.slot
  | .error _ => none

theorem Database.contents_of_load {db : Database} {page : PageId} {p : Page} (loaded : db.load page = .ok p)
    (slot : Nat) : db.contents ⟨page, slot⟩ = p.row? slot := by
  simp only [contents, loaded]

/-- The changes of transactions that were committed, in the order of the commits, and those of each
transaction since its last end. -/
structure Ledger where
  committed : List Change
  pending : TxnId → List Change

namespace Ledger

def empty : Ledger :=
  ⟨[], fun _ => []⟩

def add (l : Ledger) (c : Change) : Ledger :=
  { l with pending := fun txn => if txn = c.txn then l.pending txn ++ [c] else l.pending txn }

def close (l : Ledger) (txn : TxnId) (commit : Bool) : Ledger where
  committed := if commit then l.committed ++ l.pending txn else l.committed
  pending := fun other => if other = txn then [] else l.pending other

def note (l : Ledger) : Action × Reply → Ledger
  | (.complete txn commit _, _) => l.close txn commit
  | (action, reply) => (Change.of? action reply).elim l l.add

def along (trace : List (Action × Reply)) : Ledger :=
  trace.foldl note empty

/-- What does not end a transaction is noted by the change it makes. -/
theorem note_of_change {action : Action} (goes_on : ∀ txn commit order, action ≠ .complete txn commit order)
    (l : Ledger) (reply : Reply) :
    l.note (action, reply) = (Change.of? action reply).elim l l.add := by
  cases action with
  | complete txn commit order => exact absurd rfl (goes_on txn commit order)
  | _ => rfl

theorem along_concat (trace : List (Action × Reply)) (step : Action × Reply) :
    along (trace ++ [step]) = (along trace).note step := by
  rw [along, List.foldl_append]
  rfl

variable (initial : RecordId → Option (List Value)) (l : Ledger)

def rows : RecordId → Option (List Value) :=
  Change.replay Tuple.row initial l.committed

def seenBy (txn : TxnId) : RecordId → Option (List Value) :=
  Change.replay Tuple.row (l.rows initial) (l.pending txn)

def view (writer? : Option TxnId) : RecordId → Option (List Value) :=
  writer?.elim (l.rows initial) (l.seenBy initial)

theorem rows_empty : empty.rows initial = initial :=
  rfl

theorem seenBy_empty (txn : TxnId) : empty.seenBy initial txn = initial :=
  rfl

private theorem rows_add (c : Change) : (l.add c).rows initial = l.rows initial :=
  rfl

/-- The changing transaction sees its change, and nobody else does. -/
theorem seenBy_add (c : Change) (txn : TxnId) (record : RecordId) :
    (l.add c).seenBy initial txn record = if txn = c.txn ∧ record = c.record then
      c.content.map Tuple.row else l.seenBy initial txn record := by
  by_cases self : txn = c.txn
  · have longer : (l.add c).pending txn = l.pending txn ++ [c] := if_pos self
    rw [seenBy, rows_add, longer, Change.replay_concat, seenBy]
    simp only [self, true_and]
  · have same : (l.add c).pending txn = l.pending txn := if_neg self
    rw [seenBy, rows_add, same, if_neg fun both => self both.1, seenBy]

/-- A commit makes committed what its transaction has seen. -/
theorem rows_close (txn : TxnId) (commit : Bool) :
    (l.close txn commit).rows initial = if commit then l.seenBy initial txn else l.rows initial := by
  cases commit
  · rfl
  · exact Change.replay_append _ _

variable {initial l}

theorem mem_pending_add {c c' : Change} {txn : TxnId} :
    c' ∈ (l.add c).pending txn ↔ c' ∈ l.pending txn ∨ (txn = c.txn ∧ c' = c) := by
  simp only [add]
  split
  · rename_i self
    rw [List.mem_append, List.mem_singleton, and_iff_right self]
  · rename_i other
    exact (or_iff_left fun both => other both.1).symm

theorem mem_pending_close {c : Change} {txn other : TxnId} {commit : Bool} :
    c ∈ (l.close txn commit).pending other ↔ other ≠ txn ∧ c ∈ l.pending other := by
  simp only [close]
  split
  · rename_i self
    simp [self]
  · rename_i different
    exact (and_iff_right different).symm

theorem seenBy_of_untouched {txn : TxnId} {record : RecordId}
    (untouched : ∀ c ∈ l.pending txn, c.record.page ≠ record.page) :
    l.seenBy initial txn record = l.rows initial record :=
  Change.replay_of_untouched untouched

/-- On pages that a transaction has not changed, its end commits nothing. -/
theorem rows_close_of_untouched {txn : TxnId} {record : RecordId} (commit : Bool)
    (untouched : ∀ c ∈ l.pending txn, c.record.page ≠ record.page) :
    (l.close txn commit).rows initial record = l.rows initial record := by
  rw [rows_close]
  split
  · exact seenBy_of_untouched untouched
  · rfl

/-- On pages that a transaction has not changed, its end changes nothing for the others. -/
theorem view_close {txn : TxnId} {record : RecordId} (commit : Bool) {writer? : Option TxnId}
    (other : writer? ≠ some txn) (untouched : ∀ c ∈ l.pending txn, c.record.page ≠ record.page) :
    (l.close txn commit).view initial writer? record = l.view initial writer? record := by
  have same : (l.close txn commit).rows initial record = l.rows initial record :=
    rows_close_of_untouched commit untouched
  cases writer? with
  | none => exact same
  | some reader =>
    have kept : (l.close txn commit).pending reader = l.pending reader :=
      if_neg fun self => other (congrArg some self)
    show Change.replay _ _ ((l.close txn commit).pending reader) record = _
    rw [kept]
    exact Change.replay_congr same _

end Ledger

end PagedStore
