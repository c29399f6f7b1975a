import PagedStore.Proofs.Database.Approach
import PagedStore.Scan

/-! What scans do: they fetch the pages of a table in turn and yield their tuples. -/
namespace PagedStore

/-- Whether pages of a table, from a position on, were fetched in turn for reading as given. -/
inductive Database.Reads (table : Table) (txn : TxnId) :
    Database → Nat → List Page → Database → Prop
  | done (db : Database) (position : Nat) : Reads table txn db position [] db
  | page {db mid db' : Database} {position : Nat} {frame : Frame} {shown : List Page} :
      db.fetch txn (table.pageAt position) .read = (.ok frame, mid) →
      Reads table txn mid (position + 1) shown db' →
      Reads table txn db position (frame.page :: shown) db'

namespace Database.Reads
variable {table : Table} {txn : TxnId} {db db' : Database} {position : Nat} {shown : List Page}

private theorem approach (h : Reads table txn db position shown db') (grows : Table → Volume → Prop) :
    Approach grows txn db db' := by
  induction h with
  | done db => exact .still
  | page fetched _ ih => exact .trans (.of_fetch fetched) ih

/-- The pages read are those of the table from the position on. -/
theorem ids (h : Reads table txn db position shown db') (keyed : db.cache.Keyed) :
    shown.map Page.id = (List.range' position shown.length).map table.pageAt := by
  induction h with
  | done => rfl
  | page fetched _ ih =>
    have way : Approach (fun _ _ => False) txn _ _ := .of_fetch fetched
    have sound := way.keyed keyed
    rw [List.map_cons, ih sound, sound (fetch_eq_ok fetched).1, List.length_cons, List.range'_succ,
      List.map_cons]

/-- A transaction has the pages locked that it has read. -/
theorem locked (h : Reads table txn db position shown db') :
    ∀ i < shown.length, db'.locks.holds txn (table.pageAt (position + i)) := by
  induction h with
  | done => nofun
  | page fetched rest ih =>
    intro i inside
    cases i with
    | zero =>
      obtain ⟨-, ⟨mode, taken, -⟩, -⟩ := fetch_eq_ok fetched
      refine (rest.approach fun _ _ => False).onward.holds ?_
      rw [Locks.holds, Nat.add_zero, taken]
      rfl
    | succ i =>
      rw [Nat.add_comm i, ← Nat.add_assoc]
      exact ih i (Nat.lt_of_succ_lt_succ inside)

end Database.Reads

namespace Scan

/-! ### Looking for a tuple -/

/-- The pages that a scan fetches while it looks for a tuple in at most the given number of pages, and the
fault of the page that it cannot fetch, if any. -/
def fetches (db : Database) (s : Scan) : Nat → List Page × Option Fault
  | 0 => ([], none)
  | left + 1 =>
    match s.pending with
    | _ :: _ => ([], none)
    | [] =>
      match db.fetch s.txn (s.table.pageAt s.next) .read with
      | (.error fault, _) => ([], some fault)
      | (.ok frame, db) =>
        let rest := fetches db { s with next := s.next + 1, pending := frame.page.tuples } left
        (frame.page :: rest.1, rest.2)

/-- What a scan does that looks for a tuple: it fetches pages until one has tuples, none is left, or one
cannot be fetched. -/
structure Looks (s : Scan) (db : Database) (left : Nat) (shown : List Page) (fault : Option Fault)
    (result : Except Fault Bool) (s' : Scan) (db' : Database) : Prop where
  table : s'.table = s.table
  txn : s'.txn = s.txn
  isOpen : s'.isOpen = s.isOpen
  next : s'.next = s.next + shown.length
  length_le : shown.length ≤ left
  pending : s'.pending = s.pending ++ shown.flatMap Page.tuples
  stuck : ∀ cause, fault = some cause →
    result = .error cause ∧ s'.pending = [] ∧ shown.length < left
  found : fault = none → result = .ok (!s'.pending.isEmpty)
  done : fault = none → s'.pending = [] → shown.length = left
  reads : ∃ mid, Database.Reads s.table s.txn db s.next shown mid ∧ (fault = none ∧ db' = mid ∨
    ∃ cause, fault = some cause ∧ mid.fetch s.txn (s.table.pageAt s'.next) .read = (.error cause, db'))

private theorem looks_still {s : Scan} {left : Nat} (enough : s.pending = [] → left = 0) (db : Database) :
    s.Looks db left [] none (.ok !s.pending.isEmpty) s db :=
  ⟨rfl, rfl, rfl, rfl, Nat.zero_le _, (List.append_nil _).symm, fun _ => nofun, fun _ => rfl,
    fun _ none_left => (enough none_left).symm, db, .done db s.next, .inl ⟨rfl, rfl⟩⟩

theorem looks_advance (s : Scan) (db : Database) (left : Nat) :
    s.Looks db left (fetches db s left).1 (fetches db s left).2 (advance db s left).1
      (advance db s left).2.1 (advance db s left).2.2 := by
  induction left generalizing s db with
  | zero => exact looks_still (fun _ => rfl) db
  | succ left ih =>
    rw [fetches, advance]
    cases hp : s.pending with
    | cons tuple rest =>
      have some_left (none_left : s.pending = []) : left + 1 = 0 := by
        rw [hp] at none_left
        cases none_left
      have here := looks_still some_left db
      rwa [hp] at here
    | nil =>
      cases he : db.fetch s.txn (s.table.pageAt s.next) .read with
      | mk result mid =>
        cases result with
        | error cause =>
          refine ⟨rfl, rfl, rfl, rfl, Nat.zero_le _, (List.append_nil _).symm, fun _ same => ?_, ?_, ?_,
            db, .done db s.next, .inr ⟨cause, rfl, he⟩⟩
          · cases same
            exact ⟨rfl, hp, Nat.succ_pos left⟩
          · rintro ⟨⟩
          · rintro ⟨⟩
        | ok frame =>
          have rest := ih { s with next := s.next + 1, pending := frame.page.tuples } mid
          obtain ⟨last, reads, after⟩ := rest.reads
          refine ⟨rest.table, rest.txn, rest.isOpen, ?_, Nat.succ_le_succ rest.length_le, ?_,
            fun cause same => ?_, rest.found, fun same none_left => congrArg Nat.succ (rest.done same none_left),
            last, .page he reads, after⟩
          · rw [rest.next, List.length_cons, Nat.add_assoc, Nat.add_comm 1]
          · rw [rest.pending, hp, List.flatMap_cons]
            rfl
          · obtain ⟨failed, none_left, less⟩ := rest.stuck cause same
            exact ⟨failed, none_left, Nat.succ_lt_succ less⟩

namespace Looks
variable {s s' : Scan} {db db' : Database} {left : Nat} {shown : List Page} {fault : Option Fault}
  {result : Except Fault Bool}

theorem approach (looks : s.Looks db left shown fault result s' db') (grows : Table → Volume → Prop) :
    Database.Approach grows s.txn db db' := by
  obtain ⟨mid, reads, ⟨-, rfl⟩ | ⟨cause, -, failed⟩⟩ := looks.reads
  · exact reads.approach grows
  · exact (reads.approach grows).trans (.of_fetch failed)

/-- The pages fetched are locked. -/
theorem locked (looks : s.Looks db left shown fault result s' db') :
    ∀ i < shown.length, db'.locks.holds s.txn (s.table.pageAt (s.next + i)) := by
  intro i inside
  obtain ⟨mid, reads, ⟨-, rfl⟩ | ⟨cause, -, failed⟩⟩ := looks.reads
  · exact reads.locked i inside
  · have way : Database.Approach (fun _ _ => False) s.txn mid db' := .of_fetch failed
    exact way.onward.holds (reads.locked i inside)

end Looks

/-! ### Turns -/

/-- What a scan does in one turn: it reads pages, up to one that cannot be fetched, if any. What it
yields and what is still to come are what was to come and the tuples of these pages. -/
def Turn (s : Scan) (db : Database) (yielded : List Tuple) (s' : Scan) (db' : Database) : Prop :=
  ∃ shown mid, Database.Reads s.table s.txn db s.next shown mid ∧
    s'.table = s.table ∧ s'.txn = s.txn ∧ s'.next = s.next + shown.length ∧
    yielded ++ s'.pending = s.pending ++ shown.flatMap Page.tuples ∧
    (db' = mid ∨ ∃ fault, mid.fetch s.txn (s.table.pageAt s'.next) .read = (.error fault, db'))

namespace Turn
variable {s s' : Scan} {db mid db' : Database} {yielded : List Tuple}

private theorem still (s : Scan) (db : Database) : s.Turn db [] s db :=
  ⟨[], db, .done db s.next, rfl, rfl, rfl, by simp, .inl rfl⟩

theorem approach (h : s.Turn db yielded s' db') (grows : Table → Volume → Prop) :
    Database.Approach grows s.txn db db' := by
  rcases h with ⟨shown, mid, reads, -, -, -, -, rfl | ⟨fault, failed⟩⟩
  · exact reads.approach grows
  · exact (reads.approach grows).trans (.of_fetch failed)

private theorem yield {tuple : Tuple} {rest : List Tuple} (h : s.Turn db yielded s' db')
    (first : s'.pending = tuple :: rest) :
    s.Turn db (yielded ++ [tuple]) { s' with pending := rest } db' := by
  obtain ⟨shown, mid, reads, table, txn, next, count, after⟩ := h
  refine ⟨shown, mid, reads, table, txn, next, ?_, after⟩
  rw [← count, first, List.append_assoc]
  rfl

private theorem close (h : s.Turn db yielded s' db') (none_left : s'.pending = []) :
    s.Turn db yielded s'.close db' := by
  obtain ⟨shown, mid, reads, table, txn, next, count, after⟩ := h
  rw [none_left] at count
  exact ⟨shown, mid, reads, table, txn, next, count, after⟩

private theorem page {frame : Frame} {yielded' : List Tuple}
    (fetched : db.fetch s.txn (s.table.pageAt s.next) .read = (.ok frame, mid))
    (h : Turn { s with next := s.next + 1, pending := frame.page.tuples } mid yielded' s' db')
    (first : yielded = s.pending ++ yielded') : s.Turn db yielded s' db' := by
  obtain ⟨shown, last, reads, table, txn, next, count, after⟩ := h
  refine ⟨frame.page :: shown, last, .page fetched reads, table, txn, ?_, ?_, after⟩
  · rw [next, List.length_cons, Nat.add_assoc, Nat.add_comm 1]
  · rw [first, List.append_assoc, count, List.flatMap_cons]

private theorem fail {fault : Fault} {yielded : List Tuple}
    (failed : db.fetch s.txn (s.table.pageAt s.next) .read = (.error fault, db'))
    (rest : yielded ++ s'.pending = s.pending)
    (same : s'.table = s.table ∧ s'.txn = s.txn ∧ s'.next = s.next) :
    s.Turn db yielded s' db' := by
  obtain ⟨table, txn, next⟩ := same
  refine ⟨[], db, .done db s.next, table, txn, next, ?_, .inr ⟨fault, ?_⟩⟩
  · rw [rest, List.flatMap_nil, List.append_nil]
  · rw [next, failed]

end Turn

/-- A scan that looks for a tuple yields nothing yet, and gets stuck only where nothing is to come. -/
private theorem Looks.turn {s s' : Scan} {db db' : Database} {left : Nat} {shown : List Page}
    {fault : Option Fault} {result : Except Fault Bool} (looks : s.Looks db left shown fault result s' db') :
    s.Turn db [] s' db' ∧ ∀ cause, result = .error cause → s'.pending = [] := by
  obtain ⟨mid, reads, after⟩ := looks.reads
  refine ⟨⟨shown, mid, reads, looks.table, looks.txn, looks.next, looks.pending, ?_⟩, fun cause failed => ?_⟩
  · exact after.imp And.right fun ⟨cause, _, failed⟩ => ⟨cause, failed⟩
  · cases fault with
    | some other => exact (looks.stuck other rfl).2.1
    | none => cases failed.symm.trans (looks.found rfl)

/-- So does one that is asked whether there is more. -/
theorem turn_hasMore (s : Scan) (db : Database) :
    s.Turn db [] (s.hasMore db).2.1 (s.hasMore db).2.2 ∧
      ∀ fault, (s.hasMore db).1 = .error fault → (s.hasMore db).2.1.pending = [] := by
  rw [hasMore]
  split
  · exact (looks_advance s db (s.pagesLeft db)).turn
  · exact ⟨.still s db, nofun⟩

/-- A step yields one tuple at most. -/
theorem turn_step (s : Scan) (db : Database) :
    s.Turn db ((s.step db).1.bind Except.toOption).toList (s.step db).2.1 (s.step db).2.2 := by
  obtain ⟨turn, stuck⟩ := turn_hasMore s db
  rw [step]
  match he : s.hasMore db with
  | (.error fault, s', db') =>
    rw [he] at turn stuck
    exact turn.close (stuck fault rfl)
  | (.ok false, s', db') =>
    rw [he] at turn
    exact turn
  | (.ok true, s', db') =>
    rw [he] at turn
    simp only
    cases hp : s'.pending with
    | nil => exact turn
    | cons tuple rest => exact turn.yield hp

def rows (results : List (Except Fault Tuple)) : List Tuple :=
  results.filterMap Except.toOption

@[simp] theorem rows_ok (tuples : List Tuple) : rows (tuples.map .ok) = tuples := by
  simp [rows, List.filterMap_map, Function.comp_def, Except.toOption]

private theorem rows_append (results others : List (Except Fault Tuple)) :
    rows (results ++ others) = rows results ++ rows others :=
  List.filterMap_append

private theorem turn_collectPages (s : Scan) (db : Database) (left : Nat) :
    s.Turn db (rows (collectPages db s left).1) (collectPages db s left).2.1
      (collectPages db s left).2.2 := by
  induction left generalizing s db with
  | zero =>
    refine ⟨[], db, .done db s.next, rfl, rfl, rfl, ?_, .inl rfl⟩
    simp [collectPages]
  | succ left ih =>
    rw [collectPages]
    cases he : db.fetch s.txn (s.table.pageAt s.next) .read with
    | mk result mid =>
      cases result with
      | error fault =>
        refine .fail he ?_ ⟨rfl, rfl, rfl⟩
        rw [rows_append, rows_ok]
        exact (List.append_nil _).trans (List.append_nil _)
      | ok frame =>
        refine .page he (ih { s with next := s.next + 1, pending := frame.page.tuples } mid) ?_
        rw [rows_append, rows_ok]

/-- If only tuples are collected, every page was read, and nothing is still to come. -/
theorem reads_of_collectPages {s : Scan} {db : Database} {left : Nat} {tuples : List Tuple}
    (all : (collectPages db s left).1 = tuples.map .ok) : ∃ shown : List Page,
      Database.Reads s.table s.txn db s.next shown (collectPages db s left).2.2 ∧
      shown.length = left ∧ tuples = s.pending ++ shown.flatMap Page.tuples ∧
      (collectPages db s left).2.1 = { s with next := s.next + left, pending := [] } := by
  have ok_inj (a b : Tuple) (same : (.ok a : Except Fault Tuple) = .ok b) : a = b :=
    Except.ok.inj same
  induction left generalizing s db tuples with
  | zero =>
    refine ⟨[], .done db s.next, rfl, ?_, rfl⟩
    rw [List.flatMap_nil, List.append_nil]
    exact ((List.map_inj_right ok_inj).mp all).symm
  | succ left ih =>
    rw [collectPages] at all ⊢
    cases he : db.fetch s.txn (s.table.pageAt s.next) .read with
    | mk result mid =>
      rw [he] at all
      cases result with
      | error fault =>
        have listed : (.error fault : Except Fault Tuple) ∈ tuples.map .ok :=
          all ▸ List.mem_append_right _ (List.mem_singleton.mpr rfl)
        obtain ⟨tuple, -, same⟩ := List.mem_map.mp listed
        cases same
      | ok frame =>
        obtain ⟨first, rest, rfl, here, others⟩ := List.map_eq_append_iff.mp all.symm
        obtain ⟨shown, reads, count, same, last⟩ := ih others.symm
        refine ⟨frame.page :: shown, .page he reads, congrArg Nat.succ count, ?_, ?_⟩
        · rw [same, (List.map_inj_right ok_inj).mp here]
          rfl
        · simp only [last, Nat.add_assoc, Nat.add_comm 1]

/-- Collecting yields all that is to come, up to a page that cannot be fetched. -/
theorem turn_collect (s : Scan) (db : Database) :
    s.Turn db (rows (s.collect db).1) (s.collect db).2.1 (s.collect db).2.2 := by
  rw [collect]
  split
  · exact turn_collectPages s db (s.pagesLeft db)
  · exact .still s db

end Scan

end PagedStore
