import PagedStore.Proofs.Database.Placement
import PagedStore.Proofs.Database.Search
import PagedStore.Proofs.Run.Whole

/-! Which locks an insertion leaves behind: the pages that it has passed over are unlocked again, and the
one that it has come to stays locked. -/
namespace PagedStore

namespace Database

/-- What an insertion with this result leaves of the locks, after a search over the given number of full
pages. -/
structure Footprint (db : Database) (table : Table) (txn : TxnId) (tuple : Tuple) (count : Nat)
    (mid : Database) (result : Except Fault RecordId) (after : Locks) : Prop where
  search : Search table txn tuple db count mid
  others : ∀ other, other ≠ txn → ∀ page, after.mode? other page = db.locks.mode? other page
  kept : ∀ page old, db.locks.mode? txn page = some old →
    ∃ new, after.mode? txn page = some new ∧ new.covers old
  /-- A full page is not locked afterwards, unless it has been before or is the one in the end. -/
  passed : ∀ position < count, table.pageAt position ≠ table.pageAt count →
    db.locks.holds txn (table.pageAt position) = false →
      after.holds txn (table.pageAt position) = false
  found : ∀ record, result = .ok record → record.page = table.pageAt count ∧
    after.mode? txn record.page = some .exclusive ∧
    ∀ page, after.holds txn page ↔ db.locks.holds txn page ∨ page = record.page
  /-- A page is locked in addition only where the insertion has failed after it was granted the lock. -/
  failed : ∀ fault, result = .error fault →
    (∀ page, after.holds txn page ↔ db.locks.holds txn page) ∨
    (mid.tryPage txn tuple (table.pageAt count)).1 = .error fault ∧
      (mid.locks.request txn (table.pageAt count) .exclusive).1 = true ∧
      ∀ page, after.holds txn page ↔ db.locks.holds txn page ∨ page = table.pageAt count

namespace Footprint
variable {db mid db' : Database} {table : Table} {txn : TxnId} {tuple : Tuple} {count : Nat}

/-- An insertion that fails without asking for a page leaves the locks as the search has left them. -/
private theorem of_search (search : Search table txn tuple db count mid) (fault : Fault) :
    Footprint db table txn tuple count mid (.error fault) mid.locks where
  search := search
  others _ := search.approach.onward.others
  kept _ _ := search.approach.onward.kept
  passed _ _ _ fresh := by rw [search.holds_eq, fresh]
  found _ done := by cases done
  failed _ _ := .inl fun page => by rw [search.holds_eq]

section Decided
variable {result : Except Fault (Option RecordId)}
  (tried : mid.tryPage txn tuple (table.pageAt count) = (result, db')) (decided : result ≠ .ok none)
include tried decided

/-- The page that decides an insertion is the only one that can be locked in addition. -/
private theorem holds_of_decided (search : Search table txn tuple db count mid) (page : PageId) :
    db'.locks.holds txn page =
      ((mid.locks.request txn (table.pageAt count) .exclusive).1 && page == table.pageAt count ||
        db.locks.holds txn page) := by
  rw [locks_of_decided tried decided, holds_fetch, search.holds_eq]
  rfl

private theorem onward_of_decided (search : Search table txn tuple db count mid) :
    db.locks.Onward txn db'.locks := by
  rw [locks_of_decided tried decided]
  exact search.approach.onward.trans (mid.onward_fetch txn (table.pageAt count) .write)

private theorem fresh_of_decided (search : Search table txn tuple db count mid) {page : PageId}
    (other : page ≠ table.pageAt count) (fresh : db.locks.holds txn page = false) :
    db'.locks.holds txn page = false := by
  rw [holds_of_decided tried decided search, beq_false_of_ne other, fresh, Bool.and_false, Bool.or_false]

end Decided

private theorem of_found (keyed : db.cache.Keyed) (search : Search table txn tuple db count mid)
    {record : RecordId}
    (tried : mid.tryPage txn tuple (table.pageAt count) = (.ok (some record), db')) :
    Footprint db table txn tuple count mid (.ok record) db'.locks := by
  have decided : (.ok (some record) : Except Fault (Option RecordId)) ≠ .ok none := by rintro ⟨⟩
  have onward := onward_of_decided tried decided search
  have here : record.page = table.pageAt count :=
    page_of_tryPage (search.approach.keyed keyed) (congrArg Prod.fst tried)
  obtain ⟨frame, last, fetched, -⟩ := tryPage_eq_ok (congrArg Prod.fst tried)
  obtain ⟨-, ⟨held, locked, covers⟩, -⟩ := fetch_eq_ok fetched
  have exclusive : db'.locks.mode? txn (table.pageAt count) = some .exclusive := by
    rw [locks_of_decided tried decided, fetched, locked, LockMode.eq_exclusive_of_covers covers]
  have granted : (mid.locks.request txn (table.pageAt count) .exclusive).1 = true := by
    rcases mid.fetch_cases txn (table.pageAt count) .write with ⟨-, _, -, he⟩ | ⟨granted, -⟩
    · rw [he] at fetched
      cases fetched
    · exact granted
  refine ⟨search, fun _ => onward.others, fun _ _ => onward.kept,
    fun _ _ other fresh => fresh_of_decided tried decided search other fresh, ?_,
    fun _ failed => by cases failed⟩
  rintro _ ⟨⟩
  refine ⟨here, here ▸ exclusive, fun page => ?_⟩
  rw [holds_of_decided tried decided search, granted, here, Bool.true_and, Bool.or_eq_true, beq_iff_eq,
    or_comm]

private theorem of_failed (search : Search table txn tuple db count mid) {fault : Fault}
    (tried : mid.tryPage txn tuple (table.pageAt count) = (.error fault, db')) :
    Footprint db table txn tuple count mid (.error fault) db'.locks := by
  have decided : (.error fault : Except Fault (Option RecordId)) ≠ .ok none := by rintro ⟨⟩
  have onward := onward_of_decided tried decided search
  refine ⟨search, fun _ => onward.others, fun _ _ => onward.kept,
    fun _ _ other fresh => fresh_of_decided tried decided search other fresh, fun _ => ?_, ?_⟩
  · rintro ⟨⟩
  rintro _ ⟨⟩
  cases granted : (mid.locks.request txn (table.pageAt count) .exclusive).1 with
  | false =>
    refine .inl fun page => ?_
    rw [holds_of_decided tried decided search, granted, Bool.false_and, Bool.false_or]
  | true =>
    refine .inr ⟨congrArg Prod.fst tried, rfl, fun page => ?_⟩
    rw [holds_of_decided tried decided search, granted, Bool.true_and, Bool.or_eq_true, beq_iff_eq,
      or_comm]

private theorem of_insertInto (keyed : db.cache.Keyed) (table : Table) (txn : TxnId) (tuple : Tuple) :
    ∃ count mid, Footprint db table txn tuple count mid (db.insertInto table txn tuple).1
      (db.insertInto table txn tuple).2.locks := by
  obtain ⟨limit, -, same⟩ := db.insertInto_eq_insertWithin table txn tuple
  rw [same]
  have ending := db.ending_insertWithin table txn tuple limit
  generalize (db.insertWithin table txn tuple limit).1 = result,
    (db.insertWithin table txn tuple limit).2 = after at ending ⊢
  cases ending with
  | conflict => exact ⟨0, db, of_search .start _⟩
  | found search tried => exact ⟨_, _, of_found keyed search tried⟩
  | failed search tried => exact ⟨_, _, of_failed search tried⟩
  | spent search => exact ⟨_, _, of_search search _⟩

end Footprint

/-- An insertion by number leaves the locks of one into the known table of that number. -/
private theorem locks_insert {db : Database} (keyed : db.cache.Keyed) (txn : TxnId) {id : TableId}
    (tuple : Tuple) {table : Table}
    (known : db.catalog.table id = .ok table) :
    (db.insert txn id tuple).1 = (db.insertInto table txn tuple).1 ∧
      (db.insert txn id tuple).2.locks = (db.insertInto table txn tuple).2.locks := by
  rw [insert_eq txn tuple keyed, known]
  simp only
  cases db.insertInto table txn tuple with
  | mk result after => cases result <;> exact ⟨rfl, rfl⟩

end Database

/-- Whatever was done before and however it ends, an insertion keeps the locks that its transaction had, in
no weaker mode, and touches no lock of others. If it is done, its transaction holds in addition the page of
the record, exclusively; if it has failed, at most the page that it was granted the lock of before it
failed. All other pages that it has passed over as full are unlocked again. -/
theorem insertion_footprint {settings : Settings} {volume : Volume} {start db : Database}
    {trace : List (Action × Reply)} (opened : Database.ofVolume settings volume = .ok start)
    (run : Run (fun _ _ _ => True) start trace db) (txn : TxnId) (tuple : Tuple) :
    (∀ table, ∃ count mid, db.Footprint table txn tuple count mid (db.insertInto table txn tuple).1
      (db.insertInto table txn tuple).2.locks) ∧
    ∀ id, (∃ fault, db.catalog.table id = .error fault ∧ db.insert txn id tuple = (.error fault, db)) ∨
      ∃ table, db.catalog.table id = .ok table ∧ ∃ count mid,
        db.Footprint table txn tuple count mid (db.insert txn id tuple).1
          (db.insert txn id tuple).2.locks := by
  have keyed := (run.sound (Database.sound_ofVolume opened)).keyed
  refine ⟨fun table => Database.Footprint.of_insertInto keyed table txn tuple, fun id => ?_⟩
  cases known : db.catalog.table id with
  | error fault => exact .inl ⟨fault, rfl, by rw [Database.insert_eq txn tuple keyed, known]⟩
  | ok table =>
    obtain ⟨result, locks⟩ := Database.locks_insert keyed txn tuple known
    rw [result, locks]
    exact .inr ⟨table, rfl, Database.Footprint.of_insertInto keyed table txn tuple⟩

/-- The next number goes into a second page, which is all that its transaction has locked then. -/
theorem insertion_footprint_past_full : ∃ trace count mid,
    Database.ofVolume { pageSize := 16 } .empty = .ok Prepared.blank ∧
    Run (fun _ _ _ => True) Prepared.blank trace Prepared.filled ∧
    (Prepared.filled.insert 2 0 ⟨⟨[⟨.int, none⟩]⟩, [.int 10], none⟩).1 = .ok ⟨⟨0, 1⟩, 0⟩ ∧
    (Prepared.filled.insert 2 0 ⟨⟨[⟨.int, none⟩]⟩, [.int 10], none⟩).2.locks.pagesOf 2 = [⟨0, 1⟩] ∧
    Prepared.filled.Footprint numbersTable 2 ⟨⟨[⟨.int, none⟩]⟩, [.int 10], none⟩ count mid
      (Prepared.filled.insert 2 0 ⟨⟨[⟨.int, none⟩]⟩, [.int 10], none⟩).1
      (Prepared.filled.insert 2 0 ⟨⟨[⟨.int, none⟩]⟩, [.int 10], none⟩).2.locks := by
  obtain ⟨trace, wholesome⟩ := Prepared.run_filled
  have run : Run (fun _ _ _ => True) Prepared.blank trace Prepared.filled :=
    wholesome.mono fun _ => trivial
  have known : Prepared.filled.catalog.table 0 = .ok numbersTable := by decide +kernel
  rcases (insertion_footprint Prepared.ofVolume_blank run 2 ⟨⟨[⟨.int, none⟩]⟩, [.int 10], none⟩).2 0 with
    ⟨fault, unknown, -⟩ | ⟨table, found, count, mid, footprint⟩
  · cases known.symm.trans unknown
  · cases known.symm.trans found
    exact ⟨trace, count, mid, Prepared.ofVolume_blank, run, by decide +kernel, by decide +kernel, footprint⟩

end PagedStore
