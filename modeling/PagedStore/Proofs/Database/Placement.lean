import PagedStore.Proofs.Catalog
import PagedStore.Proofs.Database.Approach

/-! Where an insertion puts its tuple: into a page of the table, after it has had the first one. -/
namespace PagedStore.Database

/-- A page that another transaction has locked cannot be locked exclusively. -/
theorem request_denied {db : Database} (sound : db.locks.Sound) {txn other : TxnId} {page : PageId}
    (held : db.locks.holds other page) (different : other ≠ txn) :
    (db.locks.request txn page .exclusive).1 = false := by
  refine Bool.eq_false_iff.mpr fun granted => ?_
  obtain ⟨mode, locked, covers⟩ := Locks.covers_of_request granted
  rw [LockMode.eq_exclusive_of_covers covers] at locked
  have asked := db.locks.onward_request txn page .exclusive
  refine absurd ((asked.sound sound).alone locked ?_) different
  rw [Locks.holds, asked.others different]
  exact held

private theorem fetch_denied {db : Database} (sound : db.locks.Sound) {txn other : TxnId} {page : PageId}
    (held : db.locks.holds other page) (different : other ≠ txn) :
    ∃ fault, (db.fetch txn page .write).1 = .error fault := by
  rcases db.fetch_cases txn page .write with ⟨-, fault, -, he⟩ | ⟨granted, -⟩
  · exact ⟨fault, congrArg Prod.fst he⟩
  · cases granted.symm.trans (request_denied sound held different)

section Placement
variable {db : Database} {txn : TxnId} {tuple : Tuple} {table : Table} {record : RecordId}
  (keyed : db.cache.Keyed)
include keyed

omit keyed in
/-- A page that was passed over is full as it was fetched, and one that got a tuple had a slot for it. -/
theorem tryPage_eq_ok {page : PageId} {done : Option RecordId}
    (h : (db.tryPage txn tuple page).1 = .ok done) :
    ∃ frame mid, db.fetch txn page .write = (.ok frame, mid) ∧
      match done with
      | none => frame.page.freeCount = 0
      | some record => ∃ content, frame.page.insert tuple = .ok (record, content) := by
  have trial := db.trial txn tuple page
  rw [h] at trial
  generalize (db.tryPage txn tuple page).2 = db' at trial
  cases trial with
  | full fetched full => exact ⟨_, _, fetched, full⟩
  | placed fetched _ inserted => exact ⟨_, _, fetched, _, inserted⟩

theorem page_of_tryPage {page : PageId} (done : (db.tryPage txn tuple page).1 = .ok (some record)) :
    record.page = page := by
  obtain ⟨frame, mid, fetched, content, inserted⟩ := tryPage_eq_ok done
  have keyed' := keyed_fetch keyed txn page .write
  rw [fetched] at keyed'
  exact (Page.insert_eq_ok inserted).1.page_eq.trans (keyed' (fetch_eq_ok fetched).1)

private theorem table_of_tryPages {position left : Nat}
    (done : (db.tryPages table txn tuple position left).1 = .ok (some record)) :
    record.page.table = table.id := by
  induction left generalizing db position with
  | zero => cases done
  | succ left ih =>
    have way := attempt_tryPage (fun _ _ => False) txn tuple keyed (table.pageAt position)
    have first := @page_of_tryPage db txn tuple record keyed (table.pageAt position)
    rw [tryPages] at done
    cases he : db.tryPage txn tuple (table.pageAt position) with
    | mk result mid =>
      rw [he] at done way first
      rcases result with fault | (_ | found)
      · cases done
      · exact ih (way.approach.keyed keyed) done
      · rw [first done]
        rfl

private theorem table_of_tryAppended {position limit : Nat}
    (done : (db.tryAppended table txn tuple position limit).1 = .ok record) :
    record.page.table = table.id := by
  induction limit generalizing db position with
  | zero => cases done
  | succ limit ih =>
    simp only [tryAppended] at done
    have keyed : (db.appendPage table).2.cache.Keyed := keyed
    generalize (db.appendPage table).2 = added at keyed done
    have way := attempt_tryPages (fun _ _ => False) txn tuple keyed table position
      (table.pages added.volume - position)
    cases he : added.tryPages table txn tuple position (table.pages added.volume - position) with
    | mk result mid =>
      rw [he] at done way
      rcases result with fault | (_ | found)
      · cases done
      · exact ih (way.approach.keyed keyed) done
      · cases done
        exact table_of_tryPages keyed (congrArg Prod.fst he)

theorem table_of_insertInto (done : (db.insertInto table txn tuple).1 = .ok record) :
    record.page.table = table.id := by
  rw [insertInto_eq] at done
  split at done
  · have way := attempt_tryPages (fun _ _ => False) txn tuple keyed table 0 (table.pages db.volume)
    simp only at done
    cases he : db.tryPages table txn tuple 0 (table.pages db.volume) with
    | mk result mid =>
      rw [he] at done way
      rcases result with fault | (_ | found)
      · cases done
      · exact table_of_tryAppended (way.approach.keyed keyed) done
      · cases done
        exact table_of_tryPages keyed (congrArg Prod.fst he)
  · cases done

omit keyed in
/-- While another transaction has the first page of a table locked, nothing is put into the table. -/
theorem insertInto_denied (sound : db.locks.Sound) (filled : 0 < table.pages db.volume)
    {other : TxnId} (held : db.locks.holds other (table.pageAt 0)) (different : other ≠ txn) :
    ∃ fault, (db.insertInto table txn tuple).1 = .error fault := by
  rw [insertInto_eq]
  split
  · obtain ⟨fault, denied⟩ := fetch_denied sound held different
    obtain ⟨left, count⟩ := Nat.exists_eq_succ_of_ne_zero (Nat.ne_of_gt filled)
    refine ⟨fault, ?_⟩
    simp only [count, tryPages, tryPage]
    cases he : db.fetch txn (table.pageAt 0) .write with
    | mk result mid =>
      rw [he] at denied
      cases denied
      rfl
  · exact ⟨_, rfl⟩

/-- An insertion by number is one into the known table of that number. -/
theorem insert_eq_ok {id : TableId} (done : (db.insert txn id tuple).1 = .ok record) :
    ∃ table, db.catalog.table id = .ok table ∧ (db.insertInto table txn tuple).1 = .ok record := by
  rw [insert_eq txn tuple keyed] at done
  cases known : db.catalog.table id with
  | error fault =>
    rw [known] at done
    cases done
  | ok table =>
    rw [known] at done
    refine ⟨table, rfl, ?_⟩
    simp only at done
    cases he : db.insertInto table txn tuple with
    | mk result after =>
      rw [he] at done
      cases result with
      | error fault => cases done
      | ok found => exact done

end Placement

end PagedStore.Database
