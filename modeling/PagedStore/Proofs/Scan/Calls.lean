import PagedStore.Proofs.Database.Fetch
import PagedStore.Proofs.Scan

/-! What a single call of a scan does: which pages it fetches, what it answers, and where the scan is then. -/
namespace PagedStore

namespace Scan

/-! ### Calls -/

inductive Call where
  | start
  | restart
  | close
  | hasMore
  | step

def Call.Opens : Call → Prop
  | .start | .restart => True
  | _ => False

def Call.Asks : Call → Prop
  | .hasMore | .step => True
  | _ => False

inductive Answer where
  | nothing
  | more (result : Except Fault Bool)
  | next (result : Option (Except Fault Tuple))

def perform (s : Scan) (db : Database) : Call → Answer × Scan × Database
  | .start => (.nothing, s.start, db)
  | .restart => (.nothing, s.restart, db)
  | .close => (.nothing, s.close, db)
  | .hasMore => (.more (s.hasMore db).1, (s.hasMore db).2)
  | .step => (.next (s.step db).1, (s.step db).2)

def fetched (s : Scan) (db : Database) : Call → List Page × Option Fault
  | .start | .restart | .close => ([], none)
  | .hasMore | .step => if s.isOpen then fetches db s (s.pagesLeft db) else ([], none)

/-- What is noted of a call: its answer, the pages fetched, and the fault of the page that could not be
fetched, if any. -/
structure Entry where
  call : Call
  answer : Answer
  shown : List Page
  fault : Option Fault

def entry (s : Scan) (db : Database) (call : Call) : Entry :=
  ⟨call, (s.perform db call).1, (s.fetched db call).1, (s.fetched db call).2⟩

/-! ### Single calls -/

section Answers
variable {s s' : Scan} {db db' : Database}

theorem hasMore_of_closed (closed : s.isOpen = false) : s.hasMore db = (.ok false, s, db) :=
  if_neg (Bool.eq_false_iff.mp closed)

private theorem step_of_fault {fault : Fault} (failed : s.hasMore db = (.error fault, s', db')) :
    s.step db = (some (.error fault), s'.close, db') := by
  rw [step, failed]

private theorem step_of_end (ended : s.hasMore db = (.ok false, s', db')) :
    s.step db = (none, s', db') := by
  rw [step, ended]

private theorem step_of_more {tuple : Tuple} {rest : List Tuple}
    (more : s.hasMore db = (.ok true, s', db')) (first : s'.pending = tuple :: rest) :
    s.step db = (some (.ok tuple), { s' with pending := rest }, db') := by
  rw [step, more]
  simp only [first]

theorem step_of_closed (closed : s.isOpen = false) : s.step db = (none, s, db) :=
  step_of_end (hasMore_of_closed closed)

end Answers

section Open
variable {s : Scan} (opened : s.isOpen) (db : Database)
include opened

/-- An open scan that is asked whether there is more looks for a tuple in all pages that are left. -/
theorem looks_hasMore : s.Looks db (s.pagesLeft db) (s.fetched db .hasMore).1 (s.fetched db .hasMore).2
    (s.hasMore db).1 (s.hasMore db).2.1 (s.hasMore db).2.2 := by
  rw [fetched, hasMore, if_pos opened, if_pos opened]
  exact looks_advance s db (s.pagesLeft db)

/-- So does one that is asked for a tuple, which it takes out if it has found one. It is closed if it has
failed. -/
theorem looks_step : ∃ result s', s.Looks db (s.pagesLeft db) (s.fetched db .step).1 (s.fetched db .step).2
    result s' (s.step db).2.2 ∧
    ((∃ cause, (s.fetched db .step).2 = some cause ∧ (s.step db).1 = some (.error cause) ∧
        (s.step db).2.1 = s'.close) ∨
      (s.fetched db .step).2 = none ∧
        ((s'.pending = [] ∧ (s.step db).1 = none ∧ (s.step db).2.1 = s') ∨
        ∃ tuple rest, s'.pending = tuple :: rest ∧ (s.step db).1 = some (.ok tuple) ∧
          (s.step db).2.1 = { s' with pending := rest })) := by
  have looks := looks_hasMore opened db
  rw [show s.fetched db .step = s.fetched db .hasMore from rfl]
  generalize asked : s.hasMore db = outcome at looks
  obtain ⟨result, s', db'⟩ := outcome
  refine ⟨result, s', ?_⟩
  cases failed : (s.fetched db .hasMore).2 with
  | some cause =>
    rw [failed] at looks
    obtain ⟨same, -, -⟩ := looks.stuck cause rfl
    cases same
    rw [step_of_fault asked]
    exact ⟨looks, .inl ⟨cause, rfl, rfl, rfl⟩⟩
  | none =>
    rw [failed] at looks
    have same : result = .ok (!s'.pending.isEmpty) := looks.found rfl
    cases hp : s'.pending with
    | nil =>
      rw [hp] at same
      subst same
      rw [step_of_end asked]
      exact ⟨looks, .inr ⟨rfl, .inl ⟨rfl, rfl, rfl⟩⟩⟩
    | cons tuple rest =>
      rw [hp] at same
      subst same
      rw [step_of_more asked hp]
      exact ⟨looks, .inr ⟨rfl, .inr ⟨tuple, rest, rfl, rfl, rfl⟩⟩⟩

variable {db}

private theorem hasMore_of_pending {tuple : Tuple} {rest : List Tuple} (first : s.pending = tuple :: rest) :
    s.hasMore db = (.ok true, s, db) := by
  rw [hasMore, if_pos opened]
  cases s.pagesLeft db with
  | zero => rw [advance, first]; rfl
  | succ left => rw [advance, first]

private theorem hasMore_of_end (none_left : s.pending = []) (ended : s.pagesLeft db = 0) :
    s.hasMore db = (.ok false, s, db) := by
  rw [hasMore, if_pos opened, ended, advance, none_left]
  rfl

private theorem hasMore_of_fault {fault : Fault} {db' : Database} (none_left : s.pending = [])
    (more : 0 < s.pagesLeft db)
    (failed : db.fetch s.txn (s.table.pageAt s.next) .read = (.error fault, db')) :
    s.hasMore db = (.error fault, s, db') := by
  obtain ⟨left, more⟩ := Nat.exists_eq_succ_of_ne_zero (Nat.ne_of_gt more)
  rw [hasMore, if_pos opened, more, advance, none_left]
  simp only [failed]

end Open

/-- Whether there is more may be asked before the next tuple is asked for: the answer is the same. -/
theorem step_hasMore (s : Scan) (db : Database) :
    ((s.hasMore db).2.1.step (s.hasMore db).2.2).1 = (s.step db).1 := by
  cases opened : s.isOpen with
  | false => rw [hasMore_of_closed opened]
  | true =>
    have looks := looks_hasMore opened db
    generalize asked : s.hasMore db = outcome at looks ⊢
    obtain ⟨result, s', db'⟩ := outcome
    have opened' : s'.isOpen := looks.isOpen ▸ opened
    have left : s'.pagesLeft db' = s.pagesLeft db - (s.fetched db .hasMore).1.length := by
      rw [pagesLeft, pagesLeft, looks.table, (looks.approach fun _ _ => False).volume_eq, looks.next]
      exact Nat.sub_add_eq _ _ _
    cases failed : (s.fetched db .hasMore).2 with
    | some cause =>
      rw [failed] at looks
      obtain ⟨same, none_left, less⟩ := looks.stuck cause rfl
      cases same
      rcases looks.reads with ⟨mid, -, ⟨⟨⟩, -⟩ | ⟨_, ⟨⟩, unread⟩⟩
      -- the page that could not be fetched cannot be fetched now either
      have again := Database.fetch_again unread
      rw [← looks.table, ← looks.txn] at again
      have stuck := hasMore_of_fault opened' none_left (left ▸ Nat.sub_pos_of_lt less)
        (Prod.ext again rfl)
      rw [step_of_fault stuck, step_of_fault asked]
    | none =>
      rw [failed] at looks
      have same : result = .ok (!s'.pending.isEmpty) := looks.found rfl
      cases hp : s'.pending with
      | nil =>
        have ended : s'.pagesLeft db' = 0 := by rw [left, looks.done rfl hp, Nat.sub_self]
        rw [hp] at same
        subst same
        rw [step_of_end asked, step_of_end (hasMore_of_end opened' hp ended)]
      | cons tuple rest =>
        rw [hp] at same
        subst same
        rw [step_of_more asked hp, step_of_more (hasMore_of_pending opened' hp) hp]

/-! ### Closed scans -/

def Entry.Idle (e : Entry) : Prop :=
  e.shown = [] ∧ (e.answer = .nothing ∨ e.answer = .more (.ok false) ∨ e.answer = .next none)

/-- A closed scan has nothing to answer until it is started. -/
theorem idle_of_closed {s : Scan} (closed : s.isOpen = false) (db : Database) {call : Call}
    (unopened : ¬ call.Opens) :
    (s.entry db call).Idle ∧ (s.perform db call).2.1.isOpen = false := by
  cases call with
  | start | restart => exact absurd trivial unopened
  | close => exact ⟨⟨rfl, .inl rfl⟩, rfl⟩
  | hasMore =>
    rw [entry, perform, fetched, hasMore_of_closed closed, closed]
    exact ⟨⟨rfl, .inr (.inl rfl)⟩, rfl⟩
  | step =>
    rw [entry, perform, fetched, step_of_closed closed, closed]
    exact ⟨⟨rfl, .inr (.inr rfl)⟩, rfl⟩

/-! ### Faults -/

def Answer.fault? : Answer → Option Fault
  | .more (.error fault) => some fault
  | .next (some (.error fault)) => some fault
  | _ => none

/-- A call fails where a page cannot be fetched, and for no other reason. -/
theorem fault_entry (s : Scan) (db : Database) (call : Call) :
    (s.entry db call).answer.fault? = (s.entry db call).fault := by
  cases opened : s.isOpen with
  | false =>
    cases call with
    | start | restart | close => rfl
    | hasMore =>
      rw [entry, perform, fetched, hasMore_of_closed opened, opened]
      rfl
    | step =>
      rw [entry, perform, fetched, step_of_closed opened, opened]
      rfl
  | true =>
    cases call with
    | start | restart | close => rfl
    | hasMore =>
      have looks := looks_hasMore opened db
      show Answer.fault? (.more (s.hasMore db).1) = (s.fetched db .hasMore).2
      cases failed : (s.fetched db .hasMore).2 with
      | none => rw [looks.found failed]; rfl
      | some cause => rw [(looks.stuck cause failed).1]; rfl
    | step =>
      show Answer.fault? (.next (s.step db).1) = (s.fetched db .step).2
      obtain ⟨_, _, -, ⟨cause, failed, answer, -⟩ |
        ⟨none_failed, ⟨-, answer, -⟩ | ⟨tuple, rest, -, answer, -⟩⟩⟩ := looks_step opened db
      · rw [failed, answer]
        rfl
      · rw [none_failed, answer]
        rfl
      · rw [none_failed, answer]
        rfl

end Scan

end PagedStore
